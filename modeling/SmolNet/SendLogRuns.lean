import SmolNet.SendHistory
import SmolNet.SendLogQueries

/-!
# Runs of the send log

Sequences of calls on the log, with sequence numbers of one window.  Beside the log go the history of each
octet, by its offset in the window, and whether a call has merged ranges.
-/

namespace SmolNet

open Serial Intervals

namespace SendLog

section Embedding

variable {α β : Type} {W : α → Prop} {e : α → β} {call : Call α}

def Call.map (e : α → β) : Call α → Call β
  | .record una seq stop now => .record (e una) (e seq) (e stop) now
  | .advance ack => .advance (e ack)
  | .markAllLost => .markAllLost
  | .markLostBelow boundary => .markLostBelow (e boundary)
  | .detect board now xmit wait => .detect (board.map e) now (xmit.map e) wait

/-- Every number of the call is in the window. -/
def Call.In (W : α → Prop) : Call α → Prop
  | .record una seq stop _ => W una ∧ W seq ∧ W stop
  | .advance ack => W ack
  | .markAllLost => True
  | .markLostBelow boundary => W boundary
  | .detect board _ xmit _ => Scoreboard.AllIn W board.ranges ∧ W xmit.stop

/-- The acknowledgment number that the call carries. -/
def Call.ack : Call α → Option α
  | .record una _ _ _ => some una
  | .advance ack => some ack
  | _ => none

variable [Ord α] [Distance α] [DecidableEq α]

section Empty

variable {log : SendLog α} (hempty : log.ranges = [])

include hempty

omit [Distance α] [DecidableEq α] in
/-- Where a log without ranges starts does not matter to an acknowledgment. -/
theorem advance_of_empty (start ack : α) : log.advance ack = { log with start := start }.advance ack := by
  unfold advance
  simp [hempty]

theorem apply_of_ack {ack : α} (hack : call.ack = some ack) (start : α) :
    log.apply call = { log with start := start }.apply call ∧
      log.builds call = { log with start := start }.builds call := by
  cases call with
  | record una seq stop now =>
      have hprepare : log.prepare una seq = { log with start := start }.prepare una seq := by
        simp only [prepare]
        rw [advance_of_empty hempty start una]
      constructor
      · rw [apply, apply, record, hprepare]
        rfl
      · rw [builds, hprepare]
        rfl
  | advance ack => exact ⟨congrArg some (advance_of_empty hempty start ack), rfl⟩
  | _ => cases hack

/-- On a log without ranges, nothing else does anything. -/
theorem apply_of_no_ack (hack : call.ack = none) : log.apply call = some log ∧ log.builds call = some [] := by
  obtain ⟨start, ranges, sends⟩ := log
  obtain rfl : ranges = [] := hempty
  cases call with
  | record una seq stop now => cases hack
  | advance ack => cases hack
  | _ => exact ⟨rfl, rfl⟩

end Empty

theorem AllIn.apply {log log' : SendLog α} (hlog : AllIn W log) (hcall : call.In W)
    (happly : log.apply call = some log') : AllIn W log' := by
  cases call with
  | record una seq stop now =>
      obtain rfl := Option.some.inj happly
      exact hlog.record hcall.1 hcall.2.1 hcall.2.2
  | advance ack =>
      obtain rfl := Option.some.inj happly
      exact hlog.advance hcall
  | markAllLost =>
      obtain rfl := Option.some.inj happly
      exact hlog.markAllLost
  | markLostBelow boundary =>
      obtain rfl := Option.some.inj happly
      exact hlog.markLostBelow hcall
  | detect board now xmit wait =>
      simp only [SendLog.apply, SendLog.detect, Option.bind_eq_bind, Option.map_eq_some_iff,
        Option.bind_eq_some_iff] at happly
      obtain ⟨result, ⟨found, hloop, hresult⟩, rfl⟩ := happly
      obtain rfl := Option.some.inj hresult
      exact hlog.replace (stopsIn_detectLoop hcall.2 hlog.start hlog.stops hloop).build

variable [Ord β] [Distance β] [DecidableEq β] (h : Embeds W e)

include h

theorem apply_map {log : SendLog α} (hlog : AllIn W log) (hcall : call.In W) :
    (log.map e).apply (call.map e) = (log.apply call).map (map e) := by
  cases call with
  | record una seq stop now => exact congrArg some (record_map h hlog hcall.1 hcall.2.1 hcall.2.2)
  | advance ack => exact congrArg some (advance_map h hlog hcall)
  | markAllLost => exact congrArg some (markAllLost_map log)
  | markLostBelow boundary => exact congrArg some (markLostBelow_map h hlog hcall)
  | detect board now xmit wait =>
      rw [Call.map, apply, detect_map h now wait hcall.1 hcall.2 hlog, apply, Option.map_map, Option.map_map]
      rfl

theorem builds_map {log : SendLog α} (hlog : AllIn W log) (hcall : call.In W) :
    (log.map e).builds (call.map e) = (log.builds call).map (List.map (Sent.map e)) := by
  cases call with
  | record una seq stop now =>
      obtain ⟨huna, hseq, hstop⟩ := hcall
      have hadv := hlog.advance huna
      have hmax : W (max seq (log.advance una).start) := max_cases hseq hadv.start
      have hbase := hadv.reaching hmax
      have hnumbered : AllIn W ((log.advance una).reaching (max seq (log.advance una).start)).numbered :=
        ⟨hbase.start, hbase.stops⟩
      have hstart : ((log.advance una).map e).start = e (log.advance una).start := rfl
      simp only [Call.map, builds, prepare, advance_map h hlog huna, hstart, h.max hseq hadv.start,
        h.le hstop hmax, reaching_map h hadv hmax, numbered_map, sendBuilt_map h now hnumbered hmax hstop]
      by_cases hle : le stop (max seq (log.advance una).start) = true
      · simp [hle]
      · simp [hle]
  | advance ack => rfl
  | markAllLost => exact congrArg some (markAllLostBuilt_map log)
  | markLostBelow boundary => exact congrArg some (markLostBelowBuilt_map h hlog hcall)
  | detect board now xmit wait =>
      have hloop : detectLoop (board.map e) now (xmit.map e) wait (log.map e).start (log.map e).ranges =
          (detectLoop board now xmit wait log.start log.ranges).map (Detection.map e) :=
        detectLoop_map h now wait hcall.1 hcall.2 hlog.start hlog.stops
      rw [Call.map, builds, hloop, builds, Option.map_map, Option.map_map]
      refine congrFun (congrArg _ (funext fun found => ?_)) _
      exact build_map e found.pieces

/-- The log has no ranges, or every number of it is in the window. -/
def Held (W : α → Prop) (log : SendLog α) : Prop := log.ranges = [] ∨ AllIn W log

omit h [Distance β] [DecidableEq β] [Distance α] [DecidableEq α] [Ord α] [Ord β] in
theorem Call.In.ack {ack : α} (hcall : call.In W) (hack : call.ack = some ack) : W ack := by
  cases call with
  | record una seq stop now =>
      obtain rfl := Option.some.inj hack
      exact hcall.1
  | advance ack =>
      obtain rfl := Option.some.inj hack
      exact hcall
  | _ => cases hack

omit [Ord α] [Distance α] [DecidableEq α] [Ord β] [Distance β] [DecidableEq β] h in
theorem Call.ack_map (e : α → β) (call : Call α) : (call.map e).ack = call.ack.map e := by
  cases call <;> rfl

/-- On numbers of the window a call does what it does on their images. -/
theorem Held.apply {log : SendLog α} (hlog : Held W log) (hcall : call.In W) :
    (log.map e).apply (call.map e) = (log.apply call).map (map e) ∧
      (log.map e).builds (call.map e) = (log.builds call).map (List.map (Sent.map e)) ∧
      ∀ log', log.apply call = some log' → Held W log' := by
  have hall : ∀ log : SendLog α, AllIn W log → (log.map e).apply (call.map e) = (log.apply call).map (map e) ∧
      (log.map e).builds (call.map e) = (log.builds call).map (List.map (Sent.map e)) ∧
      ∀ log', log.apply call = some log' → Held W log' := fun log hlog =>
    ⟨apply_map h hlog hcall, builds_map h hlog hcall, fun log' hlog' => .inr (hlog.apply hcall hlog')⟩
  rcases hlog with hempty | hlog
  · have hempty' : (log.map e).ranges = [] := by simp [map, hempty]
    have hmap := Call.ack_map e call
    cases hack : call.ack with
    | none =>
        rw [hack] at hmap
        obtain ⟨happly, hbuilds⟩ := apply_of_no_ack hempty hack
        obtain ⟨happly', hbuilds'⟩ := apply_of_no_ack hempty' hmap
        rw [happly, happly', hbuilds, hbuilds']
        refine ⟨rfl, rfl, fun log' hlog' => ?_⟩
        obtain rfl := Option.some.inj hlog'
        exact .inl hempty
    | some ack =>
        rw [hack] at hmap
        obtain ⟨happly, hbuilds⟩ := apply_of_ack hempty hack ack
        obtain ⟨happly', hbuilds'⟩ := apply_of_ack hempty' hmap (e ack)
        rw [happly, happly', hbuilds, hbuilds']
        refine hall { log with start := ack } ⟨hcall.ack hack, ?_⟩
        simp [StopsIn, hempty]
  · exact hall log hlog

theorem Held.compacts {log : SendLog α} (hlog : Held W log) (hcall : call.In W) :
    (log.map e).compacts (call.map e) = log.compacts call ∧ (log.map e).mixes (call.map e) = log.mixes call := by
  unfold SendLog.compacts SendLog.mixes
  rw [(hlog.apply h hcall).2.1]
  cases log.builds call with
  | none => exact ⟨rfl, rfl⟩
  | some built => simp [mixed_map]

end Embedding

end SendLog

/-! ## Runs within one window -/

/-- The call's numbers are in the window, and the board it is given is as its calls leave it. -/
def SendLog.Call.Within (base : SeqNumber) : SendLog.Call SeqNumber → Prop
  | .record una seq stop _ => base.Within una ∧ base.Within seq ∧ base.Within stop
  | .advance ack => base.Within ack
  | .markAllLost => True
  | .markLostBelow boundary => base.Within boundary
  | .detect board _ xmit _ => Scoreboard.Windowed base board ∧ base.Within xmit.stop

instance (base : SeqNumber) (call : SendLog.Call SeqNumber) : Decidable (call.Within base) :=
  match call with
  | .record una seq stop _ => inferInstanceAs (Decidable (base.Within una ∧ base.Within seq ∧ base.Within stop))
  | .advance ack => inferInstanceAs (Decidable (base.Within ack))
  | .markAllLost => inferInstanceAs (Decidable True)
  | .markLostBelow boundary => inferInstanceAs (Decidable (base.Within boundary))
  | .detect board _ xmit _ => inferInstanceAs (Decidable (Scoreboard.Windowed base board ∧ base.Within xmit.stop))

theorem SendLog.Call.Within.inWindow {base : SeqNumber} {call : SendLog.Call SeqNumber} (h : call.Within base) :
    call.In base.Within := by
  cases call with
  | detect board now xmit wait => exact ⟨h.1.within, h.2⟩
  | _ => exact h

theorem SendLog.Call.Within.ascending {base : SeqNumber} {call : SendLog.Call SeqNumber} (h : call.Within base) :
    ∀ board now xmit wait, call.map base.offset = .detect board now xmit wait → Ascending board.ranges := by
  intro board now xmit wait heq
  cases call with
  | detect board' now' xmit' wait' =>
      simp only [SendLog.Call.map, SendLog.Call.detect.injEq] at heq
      rw [← heq.1]
      exact h.1.wellFormed.ascending
  | _ => cases heq

/-- The log, the history of its octets by their offsets in the window, whether a call has merged ranges, and
whether some of those were sent again. -/
structure Logged where
  log : SendLog SeqNumber
  history : History
  compacted : Bool := false
  mixed : Bool := false

namespace Logged

/-- `SendLog::new`, and a history that holds nothing. -/
def start (base : SeqNumber) : Logged where
  log := .new ⟨0⟩
  history := { start := base.offset ⟨0⟩, high := base.offset ⟨0⟩ }

def step (base : SeqNumber) (s : Logged) (call : SendLog.Call SeqNumber) : Option Logged :=
  (s.log.apply call).map fun log =>
    { log := log
      history := s.history.follow (s.log.map base.offset) (call.map base.offset)
      compacted := s.compacted || s.log.compacts call
      mixed := s.mixed || s.log.mixes call }

abbrev Reaches (base : SeqNumber) (s : Logged) : Prop :=
  Transition.Reaches (step base) (fun _ call => call.Within base) (· = start base) s

/-- The log's numbers are in the window, and their offsets follow the history. -/
structure Follows (base : SeqNumber) (s : Logged) : Prop where
  held : SendLog.Held base.Within s.log
  tracks : (s.log.map base.offset).Tracks s.history s.compacted s.mixed

variable {base : SeqNumber} {s s' : Logged}

theorem follows_start (base : SeqNumber) : Follows base (start base) :=
  ⟨.inl rfl, History.valid_start _, rfl, rfl, rfl, Nat.zero_le _, trivial⟩

theorem Follows.step {call : SendLog.Call SeqNumber} (h : Follows base s) (hcall : call.Within base) :
    ∃ s', step base s call = some s' ∧ Follows base s' := by
  obtain ⟨happly, -, hheld⟩ := h.held.apply base.embeds hcall.inWindow
  obtain ⟨log', hlog', htracks⟩ := h.tracks.apply (call.map base.offset) hcall.ascending
  rw [happly, Option.map_eq_some_iff] at hlog'
  obtain ⟨log, hlog, rfl⟩ := hlog'
  obtain ⟨hcompacts, hmixes⟩ := h.held.compacts base.embeds hcall.inWindow
  rw [hcompacts, hmixes] at htracks
  refine ⟨_, by rw [Logged.step, hlog]; rfl, hheld log hlog, htracks⟩

theorem Reaches.follows (h : Reaches base s) : Follows base s := by
  refine h.invariant ?_ ?_
  · rintro s rfl
    exact follows_start base
  · intro s call s' hs hcall hstep
    obtain ⟨t, ht, hfollows⟩ := hs.step hcall
    obtain rfl := Option.some.inj (ht.symm.trans hstep)
    exact hfollows

theorem Follows.agrees (h : Follows base s) (hc : s.compacted = false) :
    (s.log.map base.offset).Says s.history.Agrees :=
  h.tracks.told.mono fun _ _ _ hm => hm.2.2 hc

/-- The octets that were sent are those that the log holds. -/
theorem Follows.count_pos (h : Follows base s) (o : ℕ) :
    0 < (s.history.octet o).count ↔ base.offset s.log.start ≤ o ∧ o < base.offset s.log.high := by
  have hstart := h.tracks.start
  have hhigh := h.tracks.high
  rw [SendLog.high_map] at hhigh
  rw [h.tracks.valid.held, ← hstart, ← hhigh]
  rfl

/-- A log that has a start in the window has every number there. -/
theorem Follows.allIn (h : Follows base s) (hstart : base.Within s.log.start) :
    SendLog.AllIn base.Within s.log := by
  rcases h.held with hempty | hall
  · exact ⟨hstart, by simp [StopsIn, hempty]⟩
  · exact hall

/-- An octet of the log is deemed lost just if its range says so. -/
theorem Follows.lost_iff (h : Follows base s) (hc : s.compacted = false) (o : ℕ) :
    (∃ m, Marked (s.log.map base.offset).start (s.log.map base.offset).ranges o m ∧ m.lost = true) ↔
      0 < (s.history.octet o).count ∧ (s.history.octet o).lost = true := by
  have hagrees := h.agrees hc
  have hhigh : (s.log.map base.offset).high = base.offset s.log.high := SendLog.high_map s.log
  rw [h.count_pos o, ← hhigh]
  constructor
  · rintro ⟨m, hm, hlost⟩
    exact ⟨hagrees.bounds_of_marked hm, (hagrees.of_marked hm).2.2.1 ▸ hlost⟩
  · rintro ⟨⟨hle, hlt⟩, hlost⟩
    obtain ⟨m, hm⟩ := hagrees.exists_marked hle hlt
    exact ⟨m, hm, (hagrees.of_marked hm).2.2.1.trans hlost⟩

theorem Follows.pipe (h : Follows base s) (hc : s.compacted = false) (hstart : base.Within s.log.start)
    {board : Scoreboard SeqNumber} {una high : SeqNumber} (hboard : Scoreboard.Windowed base board)
    (huna : base.Within una) (hhigh : base.Within high) :
    s.log.pipe board una high = some (∑ o ∈ Finset.Ico (base.offset una) (base.offset high),
      if Covers (board.map base.offset).ranges o then 0 else s.history.copies o) := by
  have hend : (s.log.map base.offset).high = base.offset s.log.high := SendLog.high_map s.log
  rw [← SendLog.pipe_map base.embeds (h.allIn hstart) hboard.within huna hhigh]
  refine SendLog.pipe_spec hboard.wellFormed.ascending ?_ ?_
  · refine (h.agrees hc).lt_highFrom.mono fun o m ho hm => ?_
    obtain ⟨⟨-, -, hlost, hdoubled⟩, hlt⟩ := hm
    have hcount : 0 < (s.history.octet o).count := (h.count_pos o).2 ⟨ho, hend ▸ hlt⟩
    rw [History.copies, if_neg (by omega), hlost, hdoubled]
  · intro o hout
    have hcount := h.count_pos o
    rw [hend] at hout
    exact if_pos (Nat.eq_zero_of_not_pos fun hpos => hout (hcount.1 hpos))

theorem Follows.firstLost (h : Follows base s) (hc : s.compacted = false) (hstart : base.Within s.log.start)
    {board : Scoreboard SeqNumber} {high : SeqNumber} (hboard : Scoreboard.Windowed base board)
    (hhigh : base.Within high) :
    SendLog.FirstRun (SendLog.Resendable (board.map base.offset) (base.offset high)
        fun o => 0 < (s.history.octet o).count ∧ (s.history.octet o).lost = true)
      ((s.log.firstLost board high).map (Scoreboard.both base.offset)) := by
  rw [← SendLog.firstLost_map base.embeds (h.allIn hstart) hboard.within hhigh,
    ← funext fun o => propext (h.lost_iff hc o)]
  exact SendLog.firstLostLoop_spec hboard.wellFormed.ascending (h.agrees hc)

/-- Whatever the calls, the log is a contiguous list of ranges that fits, and no call panics or overruns its
builder; as long as no call merges ranges, the log denotes the history of each octet, and so do what it says
is in flight and what it says is lost first. -/
theorem reaches_denotes (h : Reaches base s) :
    (s.log.map base.offset).Says (fun _ _ => True) ∧ s.log.ranges.length ≤ logSize ∧
    (∀ call : SendLog.Call SeqNumber, call.Within base → (s.log.apply call).isSome = true ∧
      ∀ built, s.log.builds call = some built → built.length ≤ logSize + logSlack) ∧
    (s.compacted = false →
      (∀ o, 0 < (s.history.octet o).count ↔ base.offset s.log.start ≤ o ∧ o < base.offset s.log.high) ∧
      (s.log.map base.offset).Says s.history.Agrees ∧
      (base.Within s.log.start → ∀ board una high, Scoreboard.Windowed base board → base.Within una →
        base.Within high →
        s.log.pipe board una high = some (∑ o ∈ Finset.Ico (base.offset una) (base.offset high),
          if Covers (board.map base.offset).ranges o then 0 else s.history.copies o) ∧
        SendLog.FirstRun (SendLog.Resendable (board.map base.offset) (base.offset high)
            fun o => 0 < (s.history.octet o).count ∧ (s.history.octet o).lost = true)
          ((s.log.firstLost board high).map (Scoreboard.both base.offset)))) := by
  have hf := Reaches.follows h
  have hsize : s.log.ranges.length ≤ logSize := by simpa [SendLog.map] using hf.tracks.size
  refine ⟨hf.tracks.told.mono fun _ _ _ _ => trivial, hsize, ?_, ?_⟩
  · intro call hcall
    obtain ⟨s', hs', -⟩ := hf.step hcall
    rw [Logged.step, Option.map_eq_some_iff] at hs'
    obtain ⟨log, hlog, -⟩ := hs'
    refine ⟨by rw [hlog]; rfl, fun built hbuilt => ?_⟩
    have hmap := (hf.held.apply base.embeds hcall.inWindow).2.1
    rw [hbuilt, Option.map_some] at hmap
    simpa using hf.tracks.length_builds_le hcall.ascending hmap
  · intro hc
    refine ⟨hf.count_pos, hf.agrees hc, fun hstart board una high hboard huna hhigh => ⟨?_, ?_⟩⟩
    · exact hf.pipe hc hstart hboard huna hhigh
    · exact hf.firstLost hc hstart hboard hhigh

/-- Twenty octets across the point where sequence numbers wrap round: four are deemed lost, two of those are
sent again, and so are two that are not deemed lost. -/
theorem reaches_denotes_in_flight :
    ∃ s, Reaches ⟨0xfffffff0⟩ s ∧ s.compacted = false ∧ ∑ o ∈ Finset.Ico 8 28, s.history.copies o = 20 := by
  have hstart : Reaches ⟨0xfffffff0⟩ (start ⟨0xfffffff0⟩) := .start rfl
  have hrun : (Transition.execute (step ⟨0xfffffff0⟩) (fun _ call => call.Within ⟨0xfffffff0⟩) (start ⟨0xfffffff0⟩)
      [.record ⟨0xfffffff8⟩ ⟨0xfffffff8⟩ ⟨2⟩ 5, .record ⟨0xfffffff8⟩ ⟨2⟩ ⟨12⟩ 6, .markLostBelow ⟨0xfffffffc⟩,
        .record ⟨0xfffffff8⟩ ⟨0xfffffff8⟩ ⟨0xfffffffa⟩ 9, .record ⟨0xfffffff8⟩ ⟨0xfffffffe⟩ ⟨0⟩ 9]).map
      (fun s => (s.compacted, s.log.start, s.log.pipe .new ⟨0xfffffff8⟩ ⟨12⟩)) =
        some (false, ⟨0xfffffff8⟩, some 20) := by decide +kernel
  obtain ⟨s, hs, hview⟩ := hstart.observe hrun
  obtain ⟨hc, hlog, hpipe⟩ : s.compacted = false ∧ s.log.start = ⟨0xfffffff8⟩ ∧
      s.log.pipe .new ⟨0xfffffff8⟩ ⟨12⟩ = some 20 := by simpa using hview
  have hdenotes := (reaches_denotes hs).2.2.2 hc
  have hpipe' := (hdenotes.2.2 (hlog ▸ by decide) .new ⟨0xfffffff8⟩ ⟨12⟩ (by decide) (by decide) (by decide)).1
  rw [hpipe] at hpipe'
  refine ⟨s, hs, hc, Eq.trans ?_ (Option.some.inj hpipe').symm⟩
  exact Finset.sum_congr rfl fun o _ => (if_neg (not_covers_nil o)).symm

/-! ## RFC 6675's `IsLost` -/

/-- The octet is in a range whose last transmission is deemed lost. -/
def LostAt (base : SeqNumber) (log : SendLog SeqNumber) (o : ℕ) : Prop :=
  ∃ m, Marked (log.map base.offset).start (log.map base.offset).ranges o m ∧ m.lost = true

theorem marked_lost_cons {start o : ℕ} {sent : Sent ℕ} {rest : List (Sent ℕ)} :
    (start ≤ o ∧ o < sent.stop ∧ sent.lost = true) ∨ (∃ m, Marked sent.stop rest o m ∧ m.lost = true) ↔
      ∃ m, Marked start (sent :: rest) o m ∧ m.lost = true := by
  constructor
  · rintro (⟨hle, hlt, hlost⟩ | ⟨m, hm, hlost⟩)
    · exact ⟨sent.mark, .inl ⟨hle, hlt, rfl⟩, hlost⟩
    · exact ⟨m, .inr hm, hlost⟩
  · rintro ⟨m, ⟨hle, hlt, rfl⟩ | hm, hlost⟩
    · exact .inl ⟨hle, hlt, hlost⟩
    · exact .inr ⟨m, hm, hlost⟩

def decidableLost : (start : ℕ) → (ranges : List (Sent ℕ)) → (o : ℕ) →
    Decidable (∃ m, Marked start ranges o m ∧ m.lost = true)
  | _, [], _ => isFalse fun h => h.elim fun _ hm => hm.1
  | _, sent :: rest, o =>
      have := decidableLost sent.stop rest o
      decidable_of_iff _ marked_lost_cons

instance (base : SeqNumber) (log : SendLog SeqNumber) (o : ℕ) : Decidable (LostAt base log o) :=
  decidableLost _ _ _

/-- Below the boundary, an octet that was sent once is deemed lost. -/
theorem Follows.lostAt_markLostBelow (h : Follows base s) {boundary : SeqNumber} (hboundary : base.Within boundary)
    (hc : s.compacted = false) (hfits : s.log.compacts (.markLostBelow boundary) = false) {o : ℕ}
    (honce : (s.history.octet o).count = 1) :
    LostAt base (s.log.markLostBelow boundary) o ↔ o < base.offset boundary ∨ LostAt base s.log o := by
  have hcall : (SendLog.Call.markLostBelow boundary).Within base := hboundary
  obtain ⟨s', hs', hfollows⟩ := h.step hcall
  obtain rfl := Option.some.inj hs'
  have hafter := hfollows.lost_iff (by rw [hc, hfits]; rfl) o
  have hoctet : (s.history.markLostBelow (base.offset boundary)).octet o =
      if o < base.offset boundary then (s.history.octet o).deemFirstLost else s.history.octet o := rfl
  unfold LostAt
  rw [h.lost_iff hc o, hafter]
  simp only [History.follow, SendLog.Call.map, hoctet]
  split
  · rename_i hlt
    simp [Octet.deemFirstLost, honce, hlt]
  · rename_i hge
    simp [hge]

/-- The boundary that the board gives lies above just the octets that `IsLost` holds for, and so the octets that
were sent once are deemed lost as `IsLost` says. -/
theorem lostBelow_isLost {board : Scoreboard SeqNumber} (hboard : Scoreboard.AllIn base.Within board.ranges)
    (hascending : Ascending (board.map base.offset).ranges) (mss : ℕ) :
    ∃ result, board.lostBelow mss = some result ∧
      (∀ n : SeqNumber, base.Within n → ¬ Covers (board.map base.offset).ranges (base.offset n) →
        ((∃ boundary, result = some boundary ∧ lt n boundary = true) ↔
          Scoreboard.IsLost mss (base.offset n) (board.map base.offset).ranges)) ∧
      ∀ s, Reaches base s → s.compacted = false →
        (∀ boundary, result = some boundary → s.log.compacts (.markLostBelow boundary) = false) →
        ∃ log', s.log.markLosses board mss = some log' ∧
          ∀ o, (s.history.octet o).count = 1 → ¬ Covers (board.map base.offset).ranges o →
            (LostAt base log' o ↔
              Scoreboard.IsLost mss o (board.map base.offset).ranges ∨ LostAt base s.log o) := by
  have hmap := Scoreboard.lostBelow_map hboard mss
  obtain ⟨result', hresult', hspec⟩ := Scoreboard.lostBelow_spec hascending mss
  rw [hmap, Option.map_eq_some_iff] at hresult'
  obtain ⟨result, hresult, rfl⟩ := hresult'
  refine ⟨result, hresult, ?_, ?_⟩
  · intro n hn hcov
    rw [← hspec _ hcov]
    cases result with
    | none => simp
    | some boundary =>
        have hboundary := Scoreboard.within_lostBelow hboard hresult
        have hlt := base.embeds.lt hn hboundary
        rw [lt_nat] at hlt
        simp [← hlt]
  · intro s hs hc hfits
    have hf := Reaches.follows hs
    refine ⟨result.elim s.log s.log.markLostBelow, by rw [SendLog.markLosses, hresult]; rfl, ?_⟩
    intro o honce hcov
    rw [← hspec o hcov]
    cases result with
    | none => simp
    | some boundary =>
        have hboundary := Scoreboard.within_lostBelow hboard hresult
        have hmark := hf.lostAt_markLostBelow hboundary hc (hfits boundary rfl) honce
        simpa using hmark

/-- Three ranges above the octets 0 and 1, and fewer above the octet 5. -/
theorem lostBelow_isLost_three_ranges :
    Scoreboard.IsLost 100 1 [(2, 4), (6, 8), (10, 12)] ∧ ¬ Scoreboard.IsLost 100 5 [(2, 4), (6, 8), (10, 12)] ∧
      ∃ s log', Reaches ⟨0⟩ s ∧
        s.log.markLosses ⟨[(⟨2⟩, ⟨4⟩), (⟨6⟩, ⟨8⟩), (⟨10⟩, ⟨12⟩)]⟩ 100 = some log' ∧ LostAt ⟨0⟩ log' 1 := by
  have hboard : Scoreboard.Windowed ⟨0⟩ ⟨[(⟨2⟩, ⟨4⟩), (⟨6⟩, ⟨8⟩), (⟨10⟩, ⟨12⟩)]⟩ := by decide
  obtain ⟨result, hresult, hiff, hruns⟩ := lostBelow_isLost hboard.within hboard.wellFormed.ascending 100
  obtain rfl : result = some ⟨2⟩ := Option.some.inj (hresult.symm.trans (by decide))
  have hlost : Scoreboard.IsLost 100 1 [(2, 4), (6, 8), (10, 12)] :=
    (hiff ⟨1⟩ (by decide) (by decide)).1 ⟨⟨2⟩, rfl, by decide⟩
  have hkept : ¬ Scoreboard.IsLost 100 5 [(2, 4), (6, 8), (10, 12)] := by
    intro hlost'
    obtain ⟨boundary, hboundary, hlt⟩ := (hiff ⟨5⟩ (by decide) (by decide)).2 hlost'
    obtain rfl := Option.some.inj hboundary
    exact absurd hlt (by decide)
  have hstart : Reaches ⟨0⟩ (start ⟨0⟩) := .start rfl
  have hrun : (Transition.execute (step ⟨0⟩) (fun _ call => call.Within ⟨0⟩) (start ⟨0⟩)
      [.record ⟨0⟩ ⟨0⟩ ⟨14⟩ 5]).map
      (fun s => (s.compacted, s.log.compacts (.markLostBelow ⟨2⟩), (s.history.octet 1).count)) =
        some (false, false, 1) := by decide +kernel
  obtain ⟨s, hs, hview⟩ := hstart.observe hrun
  obtain ⟨hc, hfits, hcount⟩ : s.compacted = false ∧ s.log.compacts (.markLostBelow ⟨2⟩) = false ∧
      (s.history.octet 1).count = 1 := by simpa using hview
  obtain ⟨log', hlog', hmarked⟩ := hruns s hs hc fun boundary hboundary => by
    obtain rfl := Option.some.inj hboundary
    exact hfits
  exact ⟨hlost, hkept, s, log', hs, hlog', (hmarked 1 hcount (by decide)).2 (.inl hlost)⟩

end Logged

end SmolNet
