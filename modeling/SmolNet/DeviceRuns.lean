import SmolNet.Partition

/-!
# Packets and credit over runs

What a run's calls were given and what they handed out, against what the device holds.  Every packet that a
call accepted has gone to smoltcp, waits, or was dropped by the shutdown, and every packet that smoltcp emitted
was handed out, waits, or was dropped, each in order and once.  What was handed out and what is left of the
credit add up to what was granted.
-/

namespace SmolNet

open Std Program

/-! ## The log of a run -/

namespace Call

/-- What the call grants the link. -/
def grant : Call → EgressCredit
  | .grantEgress packets bytes _ => ⟨packets, bytes⟩
  | _ => ⟨0, 0⟩

end Call

/-- The packets of a call that was not refused. -/
def acceptedIn (entry : Call × Answer) : List Packet :=
  match entry.2 with
  | .envelope _ => entry.1.input
  | _ => []

def handedOutIn (entry : Call × Answer) : List Packet :=
  match entry.2 with
  | .envelope envelope => envelope.output
  | _ => []

def grantedIn (entry : Call × Answer) : EgressCredit :=
  match entry.2 with
  | .envelope _ => entry.1.grant
  | _ => ⟨0, 0⟩

def accepted (log : List (Call × Answer)) : List Packet := log.flatMap acceptedIn

def handedOut (log : List (Call × Answer)) : List Packet := log.flatMap handedOutIn

def grantedPackets (log : List (Call × Answer)) : Nat := (log.map fun entry => (grantedIn entry).packets).sum

def grantedBytes (log : List (Call × Answer)) : Nat := (log.map fun entry => (grantedIn entry).bytes).sum

namespace NativeStack

/-- Every call of the run meets the condition in the state that it is made in. -/
def Meets (C : NativeStack → Call → World → Prop) : NativeStack → List (Call × World) → Prop
  | _, [] => True
  | s, (call, world) :: rest => C s call world ∧ Meets C (s.call call world).2 rest

/-- What each call keeps of a log and a state holds at the end of a run. -/
theorem run_keeps {C : NativeStack → Call → World → Prop} {P : List (Call × Answer) → NativeStack → Prop}
    (hstep : ∀ (log : List (Call × Answer)) (s : NativeStack) (call : Call) (world : World), Reachable s →
      C s call world → P log s → P (log ++ [(call, (s.call call world).1)]) (s.call call world).2)
    {s : NativeStack} (hs : Reachable s) {calls : List (Call × World)} (hmeets : Meets C s calls)
    (h : P [] s) : P (s.run calls).1 (s.run calls).2 := by
  suffices hgeneral : ∀ (log : List (Call × Answer)), P log s → P (log ++ (s.run calls).1) (s.run calls).2 from
    hgeneral [] h
  clear h
  induction calls generalizing s with
  | nil =>
      intro log hlog
      simpa [run] using hlog
  | cons first rest ih =>
      intro log hlog
      have hnext := ih (.call first.1 first.2 hs) hmeets.2 _ (hstep log s first.1 first.2 hs hmeets.1 hlog)
      rwa [List.append_assoc] at hnext

/-! ## The device of a call -/

open BeamDevice

variable {s : NativeStack}

/-- What a call does to the device of a reachable stack. -/
inductive CallMoves (s : NativeStack) (call : Call) (answer : Answer) (s' : NativeStack) : Prop
  | refused (error : CallError) (h : answer = .error error) (hdevice : s'.device = s.device)
  | done {envelope : Envelope} {granted : BeamDevice} (h : answer = .envelope envelope)
      (hgrants : call.Grants s.device granted)
      (hmoves : DeviceMoves s granted call.input envelope.output s')
      (hfits : call.input ≠ [] → s.device.receiveFits call.input.length = true)

theorem Reachable.callMoves (h : Reachable s) (call : Call) (world : World) :
    CallMoves s call (s.call call world).1 (s.call call world).2 := by
  obtain ⟨hregular, hin⟩ := h.regular
  rcases hregular.completes_or_fails hin (fun _ _ _ => trivial) call world (allowed_any call _) with
    ⟨envelope, t, hcall, hdone⟩ | ⟨error, t, hcall, hfailed⟩
  · rw [hcall]
    obtain ⟨granted, hgrants, hmoves⟩ := hdone.device
    refine .done rfl hgrants ?_ hdone.fits
    cases hmoves with
    | still hinput houtput h => exact .still hinput houtput h
    | drives hrunning h => exact .drives hrunning h
    | discards hinput houtput hdown h => exact .discards hinput houtput hdown h
  · rw [hcall]
    exact .refused error rfl hfailed.device

/-- A stack that runs after a call ran before it. -/
theorem Reachable.running_before (h : Reachable s) (call : Call) (world : World)
    (hrunning : (s.call call world).2.lifecycle = .running) : s.lifecycle = .running := by
  obtain ⟨hregular, hin⟩ := h.regular
  obtain ⟨t, ht, hpath, -⟩ := hregular.call_path hin (fun _ _ _ => trivial) call world (allowed_any call _)
  rw [ht] at hrunning
  have hback := hpath.keeps (P := fun u => u.lifecycle = .running → s.lifecycle = .running)
    (fun _ _ _ hu hstep _ hrunning => hu (hstep.running hrunning)) id
  exact hback hrunning

/-! ## Packets over a run -/

theorem accepted_append (log : List (Call × Answer)) (entry : Call × Answer) :
    accepted (log ++ [entry]) = accepted log ++ acceptedIn entry := by simp [accepted]

theorem handedOut_append (log : List (Call × Answer)) (entry : Call × Answer) :
    handedOut (log ++ [entry]) = handedOut log ++ handedOutIn entry := by simp [handedOut]

/-- A grant changes the credit only. -/
theorem eq_of_grants {call : Call} {device granted : BeamDevice} (h : call.Grants device granted) :
    granted = { device with credit := granted.credit } := by
  cases call with
  | grantEgress packets bytes now =>
      obtain ⟨credit, -, rfl⟩ := Option.map_eq_some_iff.1 h
      rfl
  | _ => exact h ▸ rfl

/-- What the calls of the log brought and handed out, against the device: packets wait in order, and none is
dropped as long as the stack runs. -/
structure Carried (log : List (Call × Answer)) (s : NativeStack) : Prop where
  ingress : accepted log = s.device.history.taken ++ s.device.history.discardedReceive ++ s.device.receive
  egress : handedOut log ++ s.device.history.discardedTransmit ++ s.device.transmit = s.device.history.emitted
  running : s.lifecycle = .running →
    s.device.history.discardedReceive = [] ∧ s.device.history.discardedTransmit = []
  bytes : s.device.transmitBytes = byteCount s.device.transmit

theorem Carried.call {log : List (Call × Answer)} (hs : Reachable s) (h : Carried log s) (call : Call)
    (world : World) : Carried (log ++ [(call, (s.call call world).1)]) (s.call call world).2 := by
  have hback := hs.running_before call world
  have hmoves := hs.callMoves call world
  generalize (s.call call world).1 = answer at hmoves ⊢
  generalize (s.call call world).2 = s' at hback hmoves ⊢
  cases hmoves with
  | refused error hanswer hdevice =>
      subst hanswer
      refine ⟨?_, ?_, fun hrunning => ?_, ?_⟩
      · rw [accepted_append, hdevice, h.ingress]
        exact List.append_nil _
      · rw [handedOut_append, hdevice, ← h.egress]
        simp [handedOutIn]
      · rw [hdevice]
        exact h.running (hback hrunning)
      · rw [hdevice]
        exact h.bytes
  | @done envelope granted hanswer hgrants hmoves hfits =>
      subst hanswer
      have haccepted : accepted (log ++ [(call, .envelope envelope)]) = accepted log ++ call.input :=
        accepted_append log _
      have hhanded : handedOut (log ++ [(call, .envelope envelope)]) = handedOut log ++ envelope.output :=
        handedOut_append log _
      have hgranted := eq_of_grants hgrants
      cases hmoves with
      | still hinput houtput hdevice =>
          rw [hgranted] at hdevice
          refine ⟨?_, ?_, fun hrunning => ?_, ?_⟩
          · rw [haccepted, hinput, hdevice, h.ingress]
            exact List.append_nil _
          · rw [hhanded, houtput, hdevice, ← h.egress, List.append_nil]
          · rw [hdevice]
            exact h.running (hback hrunning)
          · rw [hdevice]
            exact h.bytes
      | drives hrunning hspan =>
          rw [hgranted] at hspan
          obtain ⟨taken, htaken, hreceive⟩ := hspan.ingress
          obtain ⟨emitted, hemitted, htransmit⟩ := hspan.egress
          obtain ⟨hnoReceive, hnoTransmit⟩ := h.running hrunning
          have hnoReceive' := hspan.discardedReceive.trans hnoReceive
          have hnoTransmit' := hspan.discardedTransmit.trans hnoTransmit
          refine ⟨?_, ?_, fun _ => ⟨hnoReceive', hnoTransmit'⟩, hspan.bytes h.bytes⟩
          · have hflow : taken ++ s'.device.receive = s.device.receive ++ call.input := hreceive
            rw [haccepted, h.ingress, hnoReceive, hnoReceive', htaken, List.append_nil, List.append_nil,
              List.append_assoc, ← hflow, ← List.append_assoc]
            rfl
          · have hflow : envelope.output ++ s'.device.transmit = s.device.transmit ++ emitted := htransmit
            have hegress := h.egress
            rw [hnoTransmit, List.append_nil] at hegress
            rw [hhanded, hnoTransmit', hemitted, List.append_nil, List.append_assoc, hflow, ← List.append_assoc,
              hegress]
            rfl
      | discards hinput houtput hdown hdropped =>
          rw [hgranted] at hdropped
          obtain ⟨received, hreceived, hreceive⟩ := hdropped.receive
          obtain ⟨sent, hsent, htransmit⟩ := hdropped.transmit
          refine ⟨?_, ?_, fun hrunning => (hdown hrunning).elim, hdropped.bytes h.bytes⟩
          · have hflow : received ++ s'.device.receive = s.device.receive ++ [] := hreceive
            rw [haccepted, hinput, h.ingress, hdropped.taken, hreceived]
            simp [hflow]
          · have hflow : sent ++ s'.device.transmit = s.device.transmit ++ [] := htransmit
            rw [hhanded, houtput, hsent, hdropped.emitted]
            simp [hflow, ← h.egress]

/-! ## Credit over a run -/

theorem grantedPackets_append (log : List (Call × Answer)) (entry : Call × Answer) :
    grantedPackets (log ++ [entry]) = grantedPackets log + (grantedIn entry).packets := by simp [grantedPackets]

theorem grantedBytes_append (log : List (Call × Answer)) (entry : Call × Answer) :
    grantedBytes (log ++ [entry]) = grantedBytes log + (grantedIn entry).bytes := by simp [grantedBytes]

/-- A grant that does not saturate the credit. -/
def Unsaturated (s : NativeStack) (call : Call) (_ : World) : Prop :=
  ∀ packets bytes now, call = .grantEgress packets bytes now → ∀ credit, s.device.credit = some credit →
    credit.packets + packets ≤ usizeMax ∧ credit.bytes + bytes ≤ usizeMax

/-- What was handed out and what is left of the credit make up what there was and what was granted. -/
structure Credited (start : Option EgressCredit) (log : List (Call × Answer)) (s : NativeStack) : Prop where
  limited : ∀ credit, start = some credit → ∃ left, s.device.credit = some left ∧
    (handedOut log).length + left.packets = credit.packets + grantedPackets log ∧
    byteCount (handedOut log) + left.bytes = credit.bytes + grantedBytes log
  unlimited : start = none → s.device.credit = none

/-- The credit after the grant of a call. -/
theorem credit_of_grants {call : Call} {world : World} {granted : BeamDevice}
    (h : call.Grants s.device granted) (hunsaturated : Unsaturated s call world) :
    granted.credit = s.device.credit.map fun credit =>
      ⟨credit.packets + call.grant.packets, credit.bytes + call.grant.bytes⟩ := by
  cases call with
  | grantEgress packets bytes now =>
      obtain ⟨credit, hcredit, rfl⟩ := Option.map_eq_some_iff.1 h
      obtain ⟨hpackets, hbytes⟩ := hunsaturated packets bytes now rfl credit hcredit
      rw [hcredit]
      simp only [saturatingAdd, Nat.min_eq_left hpackets, Nat.min_eq_left hbytes]
      rfl
  | _ =>
      obtain rfl : granted = s.device := h
      simp [Call.grant]

/-- What a call hands out comes from the credit, which covers it. -/
theorem DeviceMoves.credit {granted : BeamDevice} {input output : List Packet} {s' : NativeStack}
    (h : DeviceMoves s granted input output s') :
    s'.device.credit = granted.credit.map (·.spend output) ∧
      ∀ credit, granted.credit = some credit → credit.Covers output := by
  cases h with
  | still hinput houtput hdevice =>
      rw [houtput, hdevice, EgressCredit.map_spend_nil]
      exact ⟨rfl, fun credit _ => credit.covers_nil⟩
  | drives hrunning hspan => exact ⟨hspan.credit, hspan.covers⟩
  | discards hinput houtput hdown hdropped =>
      rw [houtput, hdropped.credit, EgressCredit.map_spend_nil]
      exact ⟨rfl, fun credit _ => credit.covers_nil⟩

theorem Credited.call {start : Option EgressCredit} {log : List (Call × Answer)} (hs : Reachable s)
    (h : Credited start log s) (call : Call) (world : World) (hunsaturated : Unsaturated s call world) :
    Credited start (log ++ [(call, (s.call call world).1)]) (s.call call world).2 := by
  have hmoves := hs.callMoves call world
  generalize (s.call call world).1 = answer at hmoves ⊢
  generalize (s.call call world).2 = s' at hmoves ⊢
  cases hmoves with
  | refused error hanswer hdevice =>
      subst hanswer
      refine ⟨fun credit hcredit => ?_, fun hnone => ?_⟩
      · obtain ⟨left, hleft, hpackets, hbytes⟩ := h.limited credit hcredit
        refine ⟨left, hdevice ▸ hleft, ?_, ?_⟩
        · simpa [handedOut_append, handedOutIn, grantedPackets_append, grantedIn] using hpackets
        · simpa [handedOut_append, handedOutIn, grantedBytes_append, grantedIn] using hbytes
      · rw [hdevice]
        exact h.unlimited hnone
  | @done envelope granted hanswer hgrants hmoves hfits =>
      subst hanswer
      obtain ⟨hcredit, hcovers⟩ := hmoves.credit
      have hgranted := credit_of_grants hgrants hunsaturated
      refine ⟨fun credit hstart => ?_, fun hnone => ?_⟩
      · obtain ⟨left, hleft, hpackets, hbytes⟩ := h.limited credit hstart
        rw [hleft] at hgranted
        obtain ⟨hcoverPackets, hcoverBytes⟩ := hcovers _ hgranted
        rw [hgranted] at hcredit
        refine ⟨_, hcredit, ?_, ?_⟩
        · simp only [handedOut_append, handedOutIn, grantedPackets_append, grantedIn, List.length_append,
            EgressCredit.spend]
          dsimp only at hcoverPackets
          omega
        · simp only [handedOut_append, handedOutIn, grantedBytes_append, grantedIn, byteCount_append,
            EgressCredit.spend]
          dsimp only at hcoverBytes
          omega
      · rw [hcredit, hgranted, h.unlimited hnone]
        rfl

/-! ## Handing out -/

/-- The bytes counted are those queued, so nothing that is handed out or dropped is counted twice. -/
theorem takeTransmit_exact {d : BeamDevice} (h : d.transmitBytes = byteCount d.transmit)
    (packetLimit byteLimit : Nat) (budget : CallBudget) :
    byteCount (d.takeTransmit packetLimit byteLimit budget).1 ≤ d.transmitBytes ∧
      (∀ credit, d.credit = some credit → credit.Covers (d.takeTransmit packetLimit byteLimit budget).1) ∧
      (d.takeTransmit packetLimit byteLimit budget).2.1.transmitCreditAvailable = d.transmitCreditAvailable := by
  have hspan := d.span_takeTransmit packetLimit byteLimit budget
  have hflow : (d.takeTransmit packetLimit byteLimit budget).1 ++
      (d.takeTransmit packetLimit byteLimit budget).2.1.transmit = d.transmit ++ [] :=
    d.flow_takeTransmit packetLimit byteLimit budget
  have hlength := congrArg List.length hflow
  have hcount := congrArg byteCount hflow
  simp only [List.length_append, List.length_nil, byteCount_append] at hlength hcount
  change _ = _ + 0 at hcount
  refine ⟨by omega, hspan.covers, ?_⟩
  unfold transmitCreditAvailable
  have hcredit := hspan.credit
  cases hstart : d.credit with
  | none =>
      rw [hstart] at hcredit
      rw [hcredit]
      rfl
  | some credit =>
      obtain ⟨hpackets, hbytes⟩ := hspan.covers credit hstart
      rw [hstart] at hcredit
      rw [hcredit]
      have hbytes' := hspan.bytes h
      simp only [Option.map_some, EgressCredit.spend]
      rw [hbytes', h]
      have hfirst : (d.takeTransmit packetLimit byteLimit budget).2.1.transmit.length <
            credit.packets - (d.takeTransmit packetLimit byteLimit budget).1.length ↔
          d.transmit.length < credit.packets := by omega
      have hsecond : byteCount (d.takeTransmit packetLimit byteLimit budget).2.1.transmit <
            credit.bytes - byteCount (d.takeTransmit packetLimit byteLimit budget).1 ↔
          byteCount d.transmit < credit.bytes := by omega
      simp only [hfirst, hsecond]

/-! ## Runs -/

theorem device_new {limits : Limits} {config : StackConfig} {id generation : Nat}
    (h : NativeStack.new limits config id generation = .ok s) :
    s.device = .new config.mtu limits.inputPackets config.egressCredit ∧ s.limits = limits := by
  unfold NativeStack.new at h
  split at h
  · cases h
  · split at h
    · cases h
    · obtain rfl := Except.ok.inj h
      exact ⟨rfl, rfl⟩

theorem Meets.any {C : NativeStack → Call → World → Prop} (h : ∀ s call world, C s call world) (s : NativeStack)
    (calls : List (Call × World)) : Meets C s calls := by
  induction calls generalizing s with
  | nil => trivial
  | cons first rest ih => exact ⟨h s first.1 first.2, ih _⟩

theorem run_carried {limits : Limits} {config : StackConfig} {id generation : Nat}
    (hnew : NativeStack.new limits config id generation = .ok s) (calls : List (Call × World)) :
    Carried (s.run calls).1 (s.run calls).2 := by
  refine run_keeps (C := fun _ _ _ => True) (fun log t call world ht _ h => h.call ht call world) (.new hnew)
    (Meets.any (fun _ _ _ => trivial) s calls) ?_
  obtain ⟨hdevice, -⟩ := device_new hnew
  refine ⟨?_, ?_, fun _ => ?_, ?_⟩
  · rw [hdevice]
    rfl
  · rw [hdevice]
    rfl
  · rw [hdevice]
    exact ⟨rfl, rfl⟩
  · rw [hdevice]
    rfl

theorem run_credited {limits : Limits} {config : StackConfig} {id generation : Nat}
    (hnew : NativeStack.new limits config id generation = .ok s) {calls : List (Call × World)}
    (hmeets : Meets Unsaturated s calls) :
    Credited config.egressCredit (s.run calls).1 (s.run calls).2 := by
  refine run_keeps (fun log t call world ht hcall h => h.call ht call world hcall) (.new hnew) hmeets ?_
  obtain ⟨hdevice, -⟩ := device_new hnew
  refine ⟨fun credit hcredit => ⟨credit, ?_, ?_, ?_⟩, fun hnone => ?_⟩
  · rw [hdevice]
    exact hcredit
  · simp [handedOut, grantedPackets]
  · simp [handedOut, grantedBytes, byteCount]
  · rw [hdevice]
    exact hnone

/-- What a run hands out is what smoltcp emitted first, in order; the rest waits, or was dropped by the
shutdown.  The bytes counted are those that wait.  Handing out, at whatever stage of a call, takes no more than
is counted and than the credit covers, and leaves it as it was whether the queue may grow; neither does a
shutdown drop more than is counted.  If no grant saturates the credit, what was handed out and what is left make
up what there was and what was granted. -/
theorem egress_conserved {limits : Limits} {config : StackConfig} {id generation : Nat}
    (hnew : NativeStack.new limits config id generation = .ok s) (calls : List (Call × World)) :
    handedOut (s.run calls).1 =
        (s.run calls).2.device.history.emitted.take (handedOut (s.run calls).1).length ∧
      (handedOut (s.run calls).1 ++ (s.run calls).2.device.history.discardedTransmit ++
        (s.run calls).2.device.transmit = (s.run calls).2.device.history.emitted) ∧
      ((s.run calls).2.lifecycle = .running → (s.run calls).2.device.history.discardedTransmit = []) ∧
      (s.run calls).2.device.transmitBytes = byteCount (s.run calls).2.device.transmit ∧
      (∀ transmitLimit input output d, Span ((s.run calls).2.device.beginCall transmitLimit) input output d →
        ∀ packetLimit byteLimit budget,
          byteCount (d.takeTransmit packetLimit byteLimit budget).1 ≤ d.transmitBytes ∧
          (∀ credit, d.credit = some credit →
            (d.takeTransmit packetLimit byteLimit budget).1.length ≤ credit.packets ∧
            byteCount (d.takeTransmit packetLimit byteLimit budget).1 ≤ credit.bytes) ∧
          (d.takeTransmit packetLimit byteLimit budget).2.1.transmitCreditAvailable =
            d.transmitCreditAvailable) ∧
      (∀ d, (s.run calls).2.device.Discards d → ∀ packet rest, d.transmit = packet :: rest →
        packet.length ≤ d.transmitBytes) ∧
      (Meets Unsaturated s calls →
        (∀ credit, config.egressCredit = some credit → ∃ left, (s.run calls).2.device.credit = some left ∧
          (handedOut (s.run calls).1).length + left.packets = credit.packets + grantedPackets (s.run calls).1 ∧
          byteCount (handedOut (s.run calls).1) + left.bytes = credit.bytes + grantedBytes (s.run calls).1) ∧
        (config.egressCredit = none → (s.run calls).2.device.credit = none)) := by
  have hcarried := run_carried hnew calls
  refine ⟨?_, hcarried.egress, fun hrunning => (hcarried.running hrunning).2, hcarried.bytes,
    fun transmitLimit input output d hspan => takeTransmit_exact (hspan.bytes hcarried.bytes), ?_,
    fun hmeets => ?_⟩
  · rw [← hcarried.egress, List.append_assoc, List.take_left]
  · intro d hdropped packet rest htransmit
    rw [hdropped.bytes hcarried.bytes, htransmit]
    simp [byteCount]
  · have hcredited := run_credited hnew hmeets
    exact ⟨hcredited.limited, hcredited.unlimited⟩

/-- A stack whose link has granted one packet. -/
def metered : NativeStack :=
  (NativeStack.new Script.limits { Script.config with egressCredit := some ⟨1, 100⟩ } 1 1).toOption.get
    (by decide +kernel)

/-- smoltcp emits a packet where it gets a token. -/
def emits (packet : Packet) : EgressPoll := .transmit (some packet) .idle .idle

/-- smoltcp wants to send twice; the second packet waits for the grant. -/
def meteredRun : List (Call × World) :=
  [(.poll 0, { egressPolls := [emits [1, 2, 3]] }), (.poll 0, { egressPolls := [emits [4, 5]] }),
    (.grantEgress 2 50 0, { egressPolls := [emits [6]] })]

theorem egress_conserved_metered :
    handedOut (metered.run meteredRun).1 = [[1, 2, 3], [6]] ∧
      ∃ left, (metered.run meteredRun).2.device.credit = some left ∧ 2 + left.packets = 1 + 2 ∧
        4 + left.bytes = 100 + 50 := by
  have hnew : NativeStack.new Script.limits { Script.config with egressCredit := some ⟨1, 100⟩ } 1 1 =
      .ok metered := Script.eq_ok_get _ _
  have hhanded : handedOut (metered.run meteredRun).1 = [[1, 2, 3], [6]] := by decide +kernel
  have hgranted : grantedPackets (metered.run meteredRun).1 = 2 ∧ grantedBytes (metered.run meteredRun).1 = 50 := by
    decide +kernel
  have hmeets : Meets Unsaturated metered meteredRun := by
    refine ⟨fun _ _ _ h => ?_, fun _ _ _ h => ?_, fun packets bytes now h credit hcredit => ?_, trivial⟩
    · cases h
    · cases h
    · obtain ⟨rfl, rfl, -⟩ := h
      have hleft : ((metered.run (meteredRun.take 2)).2.device.credit) = some ⟨0, 97⟩ := by decide +kernel
      obtain rfl := Option.some.inj (hcredit.symm.trans hleft)
      decide
  obtain ⟨-, -, -, -, -, -, hcredit⟩ := egress_conserved hnew meteredRun
  obtain ⟨left, hleft, hpackets, hbytes⟩ := (hcredit hmeets).1 ⟨1, 100⟩ rfl
  rw [hhanded, hgranted.1] at hpackets
  rw [hhanded, hgranted.2] at hbytes
  exact ⟨hhanded, left, hleft, hpackets, hbytes⟩

/-- Every packet of a batch that a call accepted has been taken by smoltcp, in order, or was dropped by the
shutdown, or waits; none is dropped as long as the stack runs.  A batch that is refused changes nothing but a
counter, and one that fits is driven without an error or a panic. -/
theorem ingress_conserved {limits : Limits} {config : StackConfig} {id generation : Nat}
    (hnew : NativeStack.new limits config id generation = .ok s) (calls : List (Call × World)) :
    (accepted (s.run calls).1 = (s.run calls).2.device.history.taken ++
        (s.run calls).2.device.history.discardedReceive ++ (s.run calls).2.device.receive) ∧
      ((s.run calls).2.lifecycle = .running → (s.run calls).2.device.history.discardedReceive = []) ∧
      (∀ packets now error t, ingressBatch packets now (s.run calls).2 = .error (.error error) t →
        ∃ rejected, t = { (s.run calls).2 with
          counters := { (s.run calls).2.counters with rejectedPackets := rejected } }) ∧
      (∀ packets now copied, (s.run calls).2.device.receiveFits packets.length = true →
        ∃ effects t, driveBatch now packets copied (s.run calls).2 = .ok effects t) ∧
      ∀ call world, ((s.run calls).2.call call world).1 ≠ .nativePanic := by
  have hcarried := run_carried hnew calls
  have hreachable : Reachable (s.run calls).2 := (Reachable.new hnew).run calls
  obtain ⟨hregular, hin⟩ := hreachable.regular
  refine ⟨hcarried.ingress, fun hrunning => (hcarried.running hrunning).1, fun packets now error t herror => ?_,
    fun packets now copied hfits => ?_, fun call world => ?_⟩
  · have hspec := ingressBatch_spec hregular.sound hin packets now .ok
    rw [wp_bind] at hspec
    exact wp_error hspec herror
  · have hspec := driveBatch_spec hregular.sound now copied fun _ : packets ≠ [] => hfits
    cases hdrive : driveBatch now packets copied (s.run calls).2 with
    | ok effects t => exact ⟨effects, t, rfl⟩
    | error fault t =>
        cases fault with
        | error error => exact (wp_error hspec hdrive).elim
        | panic => simp [wp, hdrive] at hspec
  · have hmoves := hreachable.callMoves call world
    cases hmoves with
    | refused error h hdevice =>
        rw [h]
        exact fun hpanic => by cases hpanic
    | done h hgrants hmoves hfits =>
        rw [h]
        exact fun hpanic => by cases hpanic

/-- The budget of the call that brings a packet ends before smoltcp is offered it, and the stack shuts down. -/
def droppedRun : List (Call × World) :=
  [(.ingress (Script.segment 5000 80 Script.syn) 0, { budget := [false] }), (.shutdown .closed, {})]

/-- A packet that was accepted is neither taken nor queued after a shutdown. -/
theorem shutdown_drops_accepted :
    NativeStack.new Script.limits Script.config 1 1 = .ok Script.stack ∧
      accepted (Script.stack.run droppedRun).1 = [Script.segment 5000 80 Script.syn] ∧
      (Script.stack.run droppedRun).2.device.history.taken ++ (Script.stack.run droppedRun).2.device.receive = [] :=
  ⟨Script.stack_new, by decide +kernel, by decide +kernel⟩

theorem ingress_conserved_dropped :
    accepted (Script.stack.run (droppedRun.take 1)).1 = [Script.segment 5000 80 Script.syn] ∧
      (Script.stack.run (droppedRun.take 1)).2.device.receive = [Script.segment 5000 80 Script.syn] ∧
      accepted (Script.stack.run droppedRun).1 = (Script.stack.run droppedRun).2.device.history.discardedReceive := by
  obtain ⟨hfirst, hkept, -⟩ := ingress_conserved Script.stack_new (droppedRun.take 1)
  have hnone := hkept (by decide +kernel)
  have htaken : (Script.stack.run (droppedRun.take 1)).2.device.history.taken = [] := by decide +kernel
  have hqueue : (Script.stack.run (droppedRun.take 1)).2.device.receive = [Script.segment 5000 80 Script.syn] := by
    decide +kernel
  refine ⟨?_, hqueue, ?_⟩
  · rw [hfirst, hnone, htaken, hqueue]
    rfl
  · obtain ⟨hall, -⟩ := ingress_conserved Script.stack_new droppedRun
    have hgone : (Script.stack.run droppedRun).2.device.history.taken = [] ∧
        (Script.stack.run droppedRun).2.device.receive = [] := by decide +kernel
    rw [hall, hgone.1, hgone.2]
    simp

/-! ## Caps -/

/-- The caps on what a stack holds. -/
structure WithinCaps (s : NativeStack) : Prop where
  logical : s.socketTable.len + s.closingTcp.size ≤ s.limits.sockets
  native : s.sockets.size ≤ s.limits.sockets
  buffers : s.socketBufferBytes ≤ maxSocketBufferBytes

theorem Regular.withinCaps (h : s.Regular) : s.WithinCaps where
  logical := h.capped.logical
  native := by
    rw [h.sound.size_eq_load]
    exact h.capped.native
  buffers := h.capped.buffers

/-- The queues of the device are within the limits. -/
structure QueuesBounded (s : NativeStack) : Prop where
  receiveLimit : s.device.receiveLimit = s.limits.inputPackets
  receive : s.device.receive.length ≤ s.device.receiveLimit
  transmit : s.device.transmit.length ≤ s.limits.outputPackets

theorem Reachable.limits_call (h : Reachable s) (call : Call) (world : World) :
    (s.call call world).2.limits = s.limits := by
  obtain ⟨hregular, hin⟩ := h.regular
  obtain ⟨t, ht, hpath, -⟩ := hregular.call_path hin (fun _ _ _ => trivial) call world (allowed_any call _)
  rw [ht]
  exact hpath.limits

theorem QueuesBounded.call (hs : Reachable s) (h : s.QueuesBounded) (call : Call) (world : World) :
    (s.call call world).2.QueuesBounded := by
  have hlimits := hs.limits_call call world
  have hmoves := hs.callMoves call world
  generalize (s.call call world).1 = answer at hmoves
  generalize (s.call call world).2 = s' at hlimits hmoves ⊢
  obtain ⟨hreceiveLimit, hreceive, htransmit⟩ := h
  cases hmoves with
  | refused error hanswer hdevice =>
      refine ⟨?_, ?_, ?_⟩
      · rw [hdevice, hlimits, hreceiveLimit]
      · rw [hdevice]
        exact hreceive
      · rw [hdevice, hlimits]
        exact htransmit
  | @done envelope granted hanswer hgrants hmoves hfits =>
      have hgranted := eq_of_grants hgrants
      cases hmoves with
      | still hinput houtput hdevice =>
          rw [hgranted] at hdevice
          refine ⟨?_, ?_, ?_⟩
          · rw [hdevice, hlimits]
            exact hreceiveLimit
          · rw [hdevice]
            exact hreceive
          · rw [hdevice, hlimits]
            exact htransmit
      | drives hrunning hspan =>
          rw [hgranted] at hspan
          obtain ⟨taken, -, hflow⟩ := hspan.ingress
          have hlength : s'.device.receive.length ≤ s.device.receive.length + call.input.length := hflow.length_le
          have hsame : s'.device.receiveLimit = s.device.receiveLimit := hspan.receiveLimit
          refine ⟨?_, ?_, ?_⟩
          · rw [hlimits, hsame]
            exact hreceiveLimit
          · by_cases hinput : call.input = []
            · rw [hinput, List.length_nil] at hlength
              omega
            · have hroom := hfits hinput
              simp only [receiveFits, decide_eq_true_eq] at hroom
              omega
          · have hroom := hspan.room htransmit
            rw [hspan.transmitLimit] at hroom
            rw [hlimits]
            exact hroom
      | discards hinput houtput hdown hdropped =>
          rw [hgranted] at hdropped
          obtain ⟨received, -, hreceived⟩ := hdropped.receive
          obtain ⟨sent, -, hsent⟩ := hdropped.transmit
          have hless : s'.device.receive.length ≤ s.device.receive.length + 0 := hreceived.length_le
          have hless' : s'.device.transmit.length ≤ s.device.transmit.length + 0 := hsent.length_le
          have hsame : s'.device.receiveLimit = s.device.receiveLimit := hdropped.receiveLimit
          refine ⟨?_, ?_, ?_⟩
          · rw [hlimits, hsame]
            exact hreceiveLimit
          · omega
          · rw [hlimits]
            omega

/-- The caps hold in every state between calls and in every state that the steps of a call lead to, the
refills of the listeners' pools among them; the queues are within their limits between calls. -/
theorem reachable_within_caps (h : Reachable s) :
    s.WithinCaps ∧ s.device.receive.length ≤ s.limits.inputPackets ∧
      s.device.transmit.length ≤ s.limits.outputPackets ∧
      (∀ call world, ∃ t, Path (fun _ _ => True) (s.beginCall world) t ∧
        (s.call call world).2 = t.observeCall) ∧
      ∀ world t, Path (fun _ _ => True) (s.beginCall world) t → t.WithinCaps := by
  obtain ⟨hregular, hin⟩ := h.regular
  have hqueues : s.QueuesBounded := by
    clear hregular hin
    induction h with
    | new hnew =>
        obtain ⟨hdevice, hlimits⟩ := device_new hnew
        refine ⟨?_, ?_, ?_⟩
        · rw [hdevice, hlimits]
          rfl
        · rw [hdevice]
          exact Nat.zero_le _
        · rw [hdevice]
          exact Nat.zero_le _
    | call call world hs ih => exact ih.call hs call world
  refine ⟨hregular.withinCaps, ?_, hqueues.transmit, fun call world => ?_, fun world t hpath => ?_⟩
  · rw [← hqueues.receiveLimit]
    exact hqueues.receive
  · obtain ⟨t, ht, hpath, -⟩ := hregular.call_path hin (fun _ _ _ => trivial) call world (allowed_any call _)
    exact ⟨t, hpath, ht⟩
  · exact ((hregular.beginCall world).path hpath).withinCaps

theorem waiting_within_caps : Script.waiting.WithinCaps ∧ Script.waiting.limits.sockets = 16 ∧
    Script.waiting.sockets.size = 3 :=
  ⟨(reachable_within_caps reachableBy_waiting.reachable).1, by decide +kernel, by decide +kernel⟩

end NativeStack

end SmolNet
