import SmolNet.Basic
import SmolNet.Scoreboard

/-!
# RACK's log of what was sent when

The log keeps when each octet from `SND.UNA` up was last sent, as ranges of sequence space that were sent
together.  A change lists the pieces that the ranges become; neighbours that match are joined again, and a
list that is too long is made shorter by merging the neighbours that were sent closest in time.
-/

namespace SmolNet

open Serial

def logSize : Nat := 64

def logSlack : Nat := 3

/-- A range of sequence space, which starts where the previous one ends, and its last transmission.  The
sends that the transmission took are numbered `first` to `last`. -/
structure Sent (α : Type) where
  stop : α
  time : Instant
  retransmitted : Bool
  lost : Bool
  doubled : Bool
  first : Nat
  last : Nat
deriving DecidableEq, Repr

/-- A delivered segment: when it was sent, its end, and the run of sends it was part of. -/
structure Xmit (α : Type) where
  time : Instant
  stop : α
  first : Nat
  last : Nat
deriving DecidableEq, Repr

section Ranges

variable {α : Type}

namespace Sent

/-- Whether `next`, starting where `sent` ends, can share its range. -/
def joins (sent next : Sent α) : Bool :=
  let sameRun := (next.first, next.last) == (sent.first, sent.last)
  let sentNext := !sent.retransmitted && next.first == sent.last + 1
  sent.time == next.time && sent.retransmitted == next.retransmitted && sent.lost == next.lost &&
    sent.doubled == next.doubled && (sameRun || sentNext)

/-- The range with `next` in it. -/
def extend (sent next : Sent α) : Sent α :=
  { sent with stop := next.stop, first := Nat.min sent.first next.first, last := Nat.max sent.last next.last }

/-- The octets of the range up to `stop`, as delivered. -/
def delivered (sent : Sent α) (stop : α) : Xmit α := ⟨sent.time, stop, sent.first, sent.last⟩

/-- How far apart two neighbours are: whether they differ in kind, then how long lies between their sends. -/
def gap (a b : Sent α) : Bool × Nat :=
  let same := a.retransmitted == b.retransmitted && a.lost == b.lost && a.doubled == b.doubled
  (!same, (a.time - b.time).natAbs)

/-- Two neighbours as one range, as if all of it had been sent at the later time. -/
def fuse (a b : Sent α) : Sent α where
  stop := b.stop
  time := Max.max a.time b.time
  retransmitted := a.retransmitted || b.retransmitted
  lost := a.lost && b.lost
  doubled := a.doubled || b.doubled
  first := Nat.min a.first b.first
  last := Nat.max a.last b.last

end Sent

/-- RFC 8985 `RACK_sent_after`. -/
def Xmit.after [Ord α] (x y : Xmit α) : Bool := x.last > y.last || (x.last == y.last && gt x.stop y.stop)

/-- `Builder::push`; the builder's last range is the head of the list. -/
def push : List (Sent α) → Sent α → List (Sent α)
  | [], sent => [sent]
  | last :: earlier, sent =>
      if last.joins sent then last.extend sent :: earlier else sent :: last :: earlier

/-- The ranges of a builder that the pieces are pushed to in turn. -/
def build (pieces : List (Sent α)) : List (Sent α) := (pieces.foldl push []).reverse

/-- Whether a gap is smaller than another. -/
def gapLess (g h : Bool × Nat) : Bool := (!g.1 && h.1) || (g.1 == h.1 && g.2 < h.2)

def gaps : List (Sent α) → List (Bool × Nat)
  | a :: b :: rest => a.gap b :: gaps (b :: rest)
  | _ => []

/-- The index of the first smallest gap, from the best one so far. -/
def leastGap (best : Bool × Nat) (at_ index : Nat) : List (Bool × Nat) → Nat
  | [] => at_
  | g :: rest => if gapLess g best then leastGap g index (index + 1) rest else leastGap best at_ (index + 1) rest

/-- The index of the neighbours that are merged first. -/
def closest (ranges : List (Sent α)) : Nat :=
  match gaps ranges with
  | [] => 0
  | g :: rest => leastGap g 0 1 rest

def fuseAt : Nat → List (Sent α) → List (Sent α)
  | 0, a :: b :: rest => a.fuse b :: rest
  | i + 1, a :: rest => a :: fuseAt i rest
  | _, ranges => ranges

def neighboursAt : Nat → List (Sent α) → Option (Sent α × Sent α)
  | 0, a :: b :: _ => some (a, b)
  | i + 1, _ :: rest => neighboursAt i rest
  | _, _ => none

/-- Merges neighbours `n` times. -/
def compactBy : Nat → List (Sent α) → List (Sent α)
  | 0, ranges => ranges
  | n + 1, ranges => compactBy n (fuseAt (closest ranges) ranges)

/-- The neighbours that are merged in turn. -/
def mergedBy : Nat → List (Sent α) → List (Sent α × Sent α)
  | 0, _ => []
  | n + 1, ranges => (neighboursAt (closest ranges) ranges).toList ++ mergedBy n (fuseAt (closest ranges) ranges)

/-- The loop of `replace`: one range fewer each time, until they fit. -/
def compact (built : List (Sent α)) : List (Sent α) := compactBy (built.length - logSize) built

def merged (built : List (Sent α)) : List (Sent α × Sent α) := mergedBy (built.length - logSize) built

/-- Some of what is merged was sent again. -/
def mixed (built : List (Sent α)) : Bool := (merged built).any fun pair => pair.1.retransmitted || pair.2.retransmitted

/-- The end of the last range. -/
def highFrom (start : α) : List (Sent α) → α
  | [] => start
  | sent :: rest => highFrom sent.stop rest

end Ranges

structure SendLog (α : Type) where
  start : α
  ranges : List (Sent α)
  sends : Nat
deriving DecidableEq, Repr

namespace SendLog

variable {α : Type} [Ord α] [Distance α] [DecidableEq α]

def new (start : α) : SendLog α := ⟨start, [], 0⟩

def high (log : SendLog α) : α := highFrom log.start log.ranges

def clear (log : SendLog α) (start : α) : SendLog α := { log with start := start, ranges := [] }

def replace (log : SendLog α) (built : List (Sent α)) : SendLog α := { log with ranges := compact built }

def advance (log : SendLog α) (ack : α) : SendLog α :=
  if log.ranges.isEmpty then { log with start := ack }
  else if le ack log.start then log
  else if ge ack log.high then log.clear ack
  else { log with ranges := log.ranges.dropWhile fun sent => le sent.stop ack, start := ack }

/-- What a range becomes when `[seq, stop)` is sent again. -/
def resendPieces (seq stop : α) (now : Instant) (send : Nat) (start : α) (sent : Sent α) : List (Sent α) :=
  if le sent.stop seq || ge start stop then [sent]
  else
    (if lt start seq then [{ sent with stop := seq }] else []) ++
    [⟨min sent.stop stop, now, true, false, !sent.lost, send, send⟩] ++
    if gt sent.stop stop then [sent] else []

/-- The pieces of every range, each with the number that it starts at. -/
def piecesFrom (pieces : α → Sent α → List (Sent α)) (start : α) : List (Sent α) → List (Sent α)
  | [] => []
  | sent :: rest => pieces start sent ++ piecesFrom pieces sent.stop rest

def freshSent (stop : α) (now : Instant) (send : Nat) : Sent α := ⟨stop, now, false, false, false, send, send⟩

/-- The builder of a `record` that does not only add to the end. -/
def recordBuilt (log : SendLog α) (seq stop : α) (now : Instant) (send : Nat) : List (Sent α) :=
  build (piecesFrom (resendPieces seq stop now send) log.start log.ranges ++
    if gt stop log.high then [freshSent stop now send] else [])

/-- New data sent where the log ends: the last range grows, or there is one more. -/
def appendFresh (log : SendLog α) (stop : α) (now : Instant) (send : Nat) : Option (SendLog α) :=
  match log.ranges.getLast? with
  | some last =>
      if last.joins (freshSent stop now send) then
        some { log with ranges := log.ranges.dropLast ++ [{ last with stop := stop, last := send }] }
      else if log.ranges.length < logSize then
        some { log with ranges := log.ranges ++ [freshSent stop now send] }
      else none
  | none => some { log with ranges := [freshSent stop now send] }

/-- The log with the acknowledged octets forgotten, where the send `[seq, stop)` can start. -/
def prepare (log : SendLog α) (una seq : α) : SendLog α × α :=
  let log := log.advance una
  (log, max seq log.start)

/-- The send `[seq, stop)`, which is the last that `sends` counts, on a log that holds or ends at `seq`. -/
def sendOn (log : SendLog α) (seq stop : α) (now : Instant) : SendLog α :=
  if seq = log.high then
    (log.appendFresh stop now log.sends).getD (log.replace (log.recordBuilt seq stop now log.sends))
  else log.replace (log.recordBuilt seq stop now log.sends)

/-- The builder that the send needs, if it does not only add to the end. -/
def sendBuilt (log : SendLog α) (seq stop : α) (now : Instant) : Option (List (Sent α)) :=
  if seq = log.high ∧ (log.appendFresh stop now log.sends).isSome = true then none
  else some (log.recordBuilt seq stop now log.sends)

/-- A log that ends below `seq` starts afresh there. -/
def reaching (log : SendLog α) (seq : α) : SendLog α := if gt seq log.high then log.clear seq else log

/-- The log with one more send counted. -/
def numbered (log : SendLog α) : SendLog α := { log with sends := log.sends + 1 }

/-- The send `[seq, stop)`, which is not empty, on a log that starts at or below `seq`. -/
def recordAt (log : SendLog α) (seq stop : α) (now : Instant) : SendLog α :=
  (log.reaching seq).numbered.sendOn seq stop now

def record (log : SendLog α) (una seq stop : α) (now : Instant) : SendLog α :=
  let (log, seq) := log.prepare una seq
  if le stop seq then log else log.recordAt seq stop now

def lostPiece (sent : Sent α) : Sent α := { sent with lost := true, doubled := false }

def markAllLostBuilt (log : SendLog α) : List (Sent α) := build (log.ranges.map lostPiece)

def markAllLost (log : SendLog α) : SendLog α := log.replace log.markAllLostBuilt

def boundaryPieces (boundary : α) (start : α) (sent : Sent α) : List (Sent α) :=
  if ge start boundary then [sent]
  else
    { sent with
      stop := min sent.stop boundary, lost := sent.lost || !sent.retransmitted, doubled := false } ::
    if gt sent.stop boundary then [sent] else []

def markLostBelowBuilt (log : SendLog α) (boundary : α) : List (Sent α) :=
  build (piecesFrom (boundaryPieces boundary) log.start log.ranges)

def markLostBelow (log : SendLog α) (boundary : α) : SendLog α := log.replace (log.markLostBelowBuilt boundary)

/-- The step of `detect_losses` that applies RFC 6675's `IsLost`. -/
def markLosses (log : SendLog α) (board : Scoreboard α) (mss : Nat) : Option (SendLog α) := do
  let boundary ← board.lostBelow mss
  return boundary.elim log log.markLostBelow

/-- The octets of `[start, stop)` within `[una, high)` that are not recorded on the board. -/
def unsacked (board : Scoreboard α) (una high start stop : α) : Option Nat :=
  let (start, stop) := (max start una, min stop high)
  if lt start stop then do
    let octets ← distance stop start
    let sacked ← board.sackedBetween start stop
    if sacked ≤ octets then some (octets - sacked) else none
  else some 0

/-- How often `pipe` counts an octet of a range. -/
def copies (sent : Sent α) : Nat := if sent.lost then 0 else if sent.doubled then 2 else 1

def pipeLoop (board : Scoreboard α) (una high : α) : α → List (Sent α) → Option Nat
  | _, [] => some 0
  | start, sent :: rest => do
      let here ← unsacked board una high start sent.stop
      let later ← pipeLoop board una high sent.stop rest
      return copies sent * here + later

def pipe (log : SendLog α) (board : Scoreboard α) (una high : α) : Option Nat := do
  let below ← unsacked board una high una log.start
  let above ← unsacked board una high log.high high
  let inside ← pipeLoop board una high log.start log.ranges
  return below + above + inside

def firstLostLoop (board : Scoreboard α) (high : α) : α → List (Sent α) → Option (α × α)
  | _, [] => none
  | start, sent :: rest =>
      if sent.lost then
        match board.unsackedRun start (min sent.stop high) with
        | some run => some run
        | none => firstLostLoop board high sent.stop rest
      else firstLostLoop board high sent.stop rest

def firstLost (log : SendLog α) (board : Scoreboard α) (high : α) : Option (α × α) :=
  firstLostLoop board high log.start log.ranges

end SendLog

/-! ## The same code on other numbers -/

section Embedding

variable {α β : Type}

def Sent.map (e : α → β) (sent : Sent α) : Sent β :=
  ⟨e sent.stop, sent.time, sent.retransmitted, sent.lost, sent.doubled, sent.first, sent.last⟩

variable (e : α → β)

@[simp] theorem Sent.joins_map (a b : Sent α) : (a.map e).joins (b.map e) = a.joins b := rfl

@[simp] theorem Sent.extend_map (a b : Sent α) : (a.map e).extend (b.map e) = (a.extend b).map e := rfl

@[simp] theorem Sent.fuse_map (a b : Sent α) : (a.map e).fuse (b.map e) = (a.fuse b).map e := rfl

theorem push_map (built : List (Sent α)) (sent : Sent α) :
    push (built.map (Sent.map e)) (sent.map e) = (push built sent).map (Sent.map e) := by
  cases built with
  | nil => rfl
  | cons last earlier =>
      by_cases hjoins : last.joins sent = true <;> simp [push, hjoins]

theorem build_map (pieces : List (Sent α)) : build (pieces.map (Sent.map e)) = (build pieces).map (Sent.map e) := by
  have hfold : ∀ built, (pieces.map (Sent.map e)).foldl push (built.map (Sent.map e)) =
      (pieces.foldl push built).map (Sent.map e) := by
    induction pieces with
    | nil => exact fun built => rfl
    | cons sent rest ih =>
        intro built
        rw [List.map_cons, List.foldl_cons, List.foldl_cons, push_map, ih]
  have hempty := hfold []
  rw [List.map_nil] at hempty
  rw [build, build, hempty, List.map_reverse]

theorem gaps_map (ranges : List (Sent α)) : gaps (ranges.map (Sent.map e)) = gaps ranges := by
  induction ranges with
  | nil => rfl
  | cons a rest ih =>
      cases rest with
      | nil => rfl
      | cons b rest => exact congrArg _ ih

theorem fuseAt_map (i : Nat) (ranges : List (Sent α)) :
    fuseAt i (ranges.map (Sent.map e)) = (fuseAt i ranges).map (Sent.map e) := by
  induction ranges generalizing i with
  | nil => cases i <;> rfl
  | cons a rest ih =>
      cases i with
      | zero => cases rest <;> rfl
      | succ i => exact congrArg _ (ih i)

theorem closest_map (ranges : List (Sent α)) : closest (ranges.map (Sent.map e)) = closest ranges := by
  rw [closest, closest, gaps_map]

theorem compactBy_map (n : Nat) (ranges : List (Sent α)) :
    compactBy n (ranges.map (Sent.map e)) = (compactBy n ranges).map (Sent.map e) := by
  induction n generalizing ranges with
  | zero => rfl
  | succ n ih => rw [compactBy, compactBy, closest_map, fuseAt_map, ih]

theorem neighboursAt_map (i : Nat) (ranges : List (Sent α)) :
    neighboursAt i (ranges.map (Sent.map e)) = (neighboursAt i ranges).map (Prod.map (Sent.map e) (Sent.map e)) := by
  induction ranges generalizing i with
  | nil => cases i <;> rfl
  | cons a rest ih =>
      cases i with
      | zero => cases rest <;> rfl
      | succ i => exact ih i

theorem mergedBy_map (n : Nat) (ranges : List (Sent α)) :
    mergedBy n (ranges.map (Sent.map e)) = (mergedBy n ranges).map (Prod.map (Sent.map e) (Sent.map e)) := by
  induction n generalizing ranges with
  | zero => rfl
  | succ n ih =>
      rw [mergedBy, mergedBy, closest_map, fuseAt_map, ih, neighboursAt_map, List.map_append]
      cases neighboursAt (closest ranges) ranges <;> rfl

theorem mixed_map (built : List (Sent α)) : mixed (built.map (Sent.map e)) = mixed built := by
  rw [mixed, mixed, merged, merged, mergedBy_map, List.length_map, List.any_map]
  rfl

theorem compact_map (built : List (Sent α)) : compact (built.map (Sent.map e)) = (compact built).map (Sent.map e) := by
  rw [compact, compact, compactBy_map, List.length_map]

theorem highFrom_map (start : α) (ranges : List (Sent α)) :
    highFrom (e start) (ranges.map (Sent.map e)) = e (highFrom start ranges) := by
  induction ranges generalizing start with
  | nil => rfl
  | cons sent rest ih => exact ih sent.stop

end Embedding

/-! ## Ends of ranges -/

section Stops

variable {α : Type} {W : α → Prop}

/-- Every range ends in the window. -/
def StopsIn (W : α → Prop) (ranges : List (Sent α)) : Prop := ∀ sent ∈ ranges, W sent.stop

theorem stopsIn_cons {sent : Sent α} {rest : List (Sent α)} :
    StopsIn W (sent :: rest) ↔ W sent.stop ∧ StopsIn W rest := by
  simp [StopsIn]

theorem StopsIn.append {xs ys : List (Sent α)} (hx : StopsIn W xs) (hy : StopsIn W ys) : StopsIn W (xs ++ ys) := by
  intro sent hsent
  rcases List.mem_append.1 hsent with hsent | hsent
  · exact hx sent hsent
  · exact hy sent hsent

theorem StopsIn.push {built : List (Sent α)} {sent : Sent α} (h : StopsIn W built) (hsent : W sent.stop) :
    StopsIn W (push built sent) := by
  cases built with
  | nil => exact stopsIn_cons.2 ⟨hsent, h⟩
  | cons last earlier =>
      simp only [SmolNet.push]
      split
      · exact stopsIn_cons.2 ⟨hsent, (stopsIn_cons.1 h).2⟩
      · exact stopsIn_cons.2 ⟨hsent, h⟩

theorem StopsIn.build {pieces : List (Sent α)} (h : StopsIn W pieces) : StopsIn W (build pieces) := by
  have hfold : ∀ built, StopsIn W built → StopsIn W (pieces.foldl SmolNet.push built) := by
    induction pieces with
    | nil => exact fun built hbuilt => hbuilt
    | cons sent rest ih =>
        obtain ⟨hsent, hrest⟩ := stopsIn_cons.1 h
        exact fun built hbuilt => ih hrest _ (hbuilt.push hsent)
  intro sent hsent
  exact hfold [] (by simp [StopsIn]) sent (List.mem_reverse.1 hsent)

theorem StopsIn.fuseAt {ranges : List (Sent α)} (h : StopsIn W ranges) (i : Nat) : StopsIn W (fuseAt i ranges) := by
  induction ranges generalizing i with
  | nil => cases i <;> exact h
  | cons a rest ih =>
      obtain ⟨ha, hrest⟩ := stopsIn_cons.1 h
      cases i with
      | zero =>
          cases rest with
          | nil => exact h
          | cons b rest =>
              obtain ⟨hb, hrest⟩ := stopsIn_cons.1 hrest
              exact stopsIn_cons.2 ⟨hb, hrest⟩
      | succ i => exact stopsIn_cons.2 ⟨ha, ih hrest i⟩

theorem StopsIn.compactBy {ranges : List (Sent α)} (h : StopsIn W ranges) (n : Nat) :
    StopsIn W (compactBy n ranges) := by
  induction n generalizing ranges with
  | zero => exact h
  | succ n ih => exact ih (h.fuseAt _)

theorem StopsIn.compact {built : List (Sent α)} (h : StopsIn W built) : StopsIn W (compact built) :=
  h.compactBy _

end Stops

namespace SendLog

section Embedding

variable {α β : Type} {W : α → Prop} {e : α → β} {log : SendLog α}

def map (e : α → β) (log : SendLog α) : SendLog β := ⟨e log.start, log.ranges.map (Sent.map e), log.sends⟩

/-- Every number of the log is in the window. -/
structure AllIn (W : α → Prop) (log : SendLog α) : Prop where
  start : W log.start
  stops : StopsIn W log.ranges

theorem AllIn.high (h : AllIn W log) : W log.high := by
  have hfrom : ∀ (start : α) (ranges : List (Sent α)), W start → (∀ sent ∈ ranges, W sent.stop) →
      W (highFrom start ranges) := by
    intro start ranges
    induction ranges generalizing start with
    | nil => exact fun hstart _ => hstart
    | cons sent rest ih =>
        exact fun _ hall => ih sent.stop (hall sent (by simp)) fun s hs => hall s (by simp [hs])
  exact hfrom log.start log.ranges h.start h.stops

theorem high_map (log : SendLog α) : (log.map e).high = e log.high := highFrom_map e log.start log.ranges

theorem numbered_map (log : SendLog α) : (log.map e).numbered = log.numbered.map e := rfl

theorem replace_map (log : SendLog α) (built : List (Sent α)) :
    (log.map e).replace (built.map (Sent.map e)) = (log.replace built).map e := by
  rw [replace, compact_map, replace]
  rfl

theorem piecesFrom_map {pieces : α → Sent α → List (Sent α)} {pieces' : β → Sent β → List (Sent β)} {start : α}
    {ranges : List (Sent α)} (hstart : W start) (hstops : ∀ sent ∈ ranges, W sent.stop)
    (hpieces : ∀ start sent, W start → W sent.stop →
      pieces' (e start) (sent.map e) = (pieces start sent).map (Sent.map e)) :
    piecesFrom pieces' (e start) (ranges.map (Sent.map e)) =
      (piecesFrom pieces start ranges).map (Sent.map e) := by
  induction ranges generalizing start with
  | nil => rfl
  | cons sent rest ih =>
      have hstop := hstops sent (by simp)
      have hrest := ih hstop fun s hs => hstops s (by simp [hs])
      simp only [List.map_cons, piecesFrom, List.map_append, hpieces start sent hstart hstop]
      rw [← hrest]
      rfl

theorem AllIn.replace {built : List (Sent α)} (hlog : AllIn W log) (hbuilt : StopsIn W built) :
    AllIn W (log.replace built) := ⟨hlog.start, hbuilt.compact⟩

theorem AllIn.piecesFrom {pieces : α → Sent α → List (Sent α)} {start : α} {ranges : List (Sent α)}
    (hstops : StopsIn W ranges) (hpieces : ∀ start sent, W sent.stop → StopsIn W (pieces start sent)) :
    StopsIn W (piecesFrom pieces start ranges) := by
  induction ranges generalizing start with
  | nil => simp [SendLog.piecesFrom, StopsIn]
  | cons sent rest ih =>
      obtain ⟨hsent, hrest⟩ := stopsIn_cons.1 hstops
      exact (hpieces start sent hsent).append (ih hrest)

theorem AllIn.appendFresh {log log' : SendLog α} {stop : α} {now : Instant} {send : Nat} (hlog : AllIn W log)
    (hstop : W stop) (happend : log.appendFresh stop now send = some log') : AllIn W log' := by
  have hfresh : StopsIn W [freshSent stop now send] := stopsIn_cons.2 ⟨hstop, by simp [StopsIn]⟩
  unfold SendLog.appendFresh at happend
  split at happend
  · split at happend
    · obtain rfl := Option.some.inj happend
      refine ⟨hlog.start, StopsIn.append ?_ ?_⟩
      · exact fun sent hsent => hlog.stops sent (List.mem_of_mem_dropLast hsent)
      · exact stopsIn_cons.2 ⟨hstop, by simp [StopsIn]⟩
    · split at happend
      · obtain rfl := Option.some.inj happend
        exact ⟨hlog.start, hlog.stops.append hfresh⟩
      · cases happend
  · obtain rfl := Option.some.inj happend
    exact ⟨hlog.start, hfresh⟩

theorem AllIn.markAllLost (hlog : AllIn W log) : AllIn W log.markAllLost := by
  refine hlog.replace (StopsIn.build ?_)
  intro piece hpiece
  obtain ⟨sent, hsent, rfl⟩ := List.mem_map.1 hpiece
  exact hlog.stops sent hsent

variable [Ord α]

theorem AllIn.advance {ack : α} (hlog : AllIn W log) (hack : W ack) : AllIn W (log.advance ack) := by
  unfold SendLog.advance
  split
  · exact ⟨hack, hlog.stops⟩
  · split
    · exact hlog
    · split
      · exact ⟨hack, by simp [clear, StopsIn]⟩
      · exact ⟨hack, fun sent hsent => hlog.stops sent (List.dropWhile_subset _ hsent)⟩

theorem AllIn.reaching {seq : α} (hlog : AllIn W log) (hseq : W seq) : AllIn W (log.reaching seq) := by
  unfold SendLog.reaching
  split
  · exact ⟨hseq, by simp [clear, StopsIn]⟩
  · exact hlog

theorem stopsIn_resendPieces {seq stop start : α} {now : Instant} {send : Nat} {sent : Sent α} (hseq : W seq)
    (hstop : W stop) (hsent : W sent.stop) : StopsIn W (resendPieces seq stop now send start sent) := by
  unfold resendPieces
  split
  · exact stopsIn_cons.2 ⟨hsent, by simp [StopsIn]⟩
  · refine StopsIn.append (StopsIn.append ?_ ?_) ?_
    · split <;> simp [StopsIn, hseq]
    · exact stopsIn_cons.2 ⟨min_cases hsent hstop, by simp [StopsIn]⟩
    · split <;> simp [StopsIn, hsent]

theorem stopsIn_recordBuilt {seq stop : α} (now : Instant) (send : Nat) (hlog : AllIn W log) (hseq : W seq)
    (hstop : W stop) : StopsIn W (log.recordBuilt seq stop now send) := by
  refine StopsIn.build (StopsIn.append ?_ ?_)
  · exact AllIn.piecesFrom hlog.stops fun start sent hsent => stopsIn_resendPieces hseq hstop hsent
  · split <;> simp [StopsIn, freshSent, hstop]

theorem AllIn.sendOn [DecidableEq α] {seq stop : α} {now : Instant} (hlog : AllIn W log) (hseq : W seq)
    (hstop : W stop) : AllIn W (log.sendOn seq stop now) := by
  have hreplace := hlog.replace (stopsIn_recordBuilt now log.sends hlog hseq hstop)
  unfold SendLog.sendOn
  split
  · cases happend : log.appendFresh stop now log.sends with
    | none => exact hreplace
    | some log' => exact hlog.appendFresh hstop happend
  · exact hreplace

theorem AllIn.record [DecidableEq α] {una seq stop : α} {now : Instant} (hlog : AllIn W log) (huna : W una)
    (hseq : W seq) (hstop : W stop) : AllIn W (log.record una seq stop now) := by
  have hadv := hlog.advance huna
  have hmax : W (max seq (log.advance una).start) := max_cases hseq hadv.start
  have hbase := hadv.reaching hmax
  unfold SendLog.record prepare
  dsimp only
  split
  · exact hadv
  · have hnumbered : AllIn W ((log.advance una).reaching (max seq (log.advance una).start)).numbered :=
      ⟨hbase.start, hbase.stops⟩
    exact hnumbered.sendOn hmax hstop

theorem AllIn.markLostBelow {boundary : α} (hlog : AllIn W log) (hboundary : W boundary) :
    AllIn W (log.markLostBelow boundary) := by
  refine hlog.replace (StopsIn.build (AllIn.piecesFrom hlog.stops fun start sent hsent => ?_))
  unfold boundaryPieces
  split
  · exact stopsIn_cons.2 ⟨hsent, by simp [StopsIn]⟩
  · refine stopsIn_cons.2 ⟨min_cases hsent hboundary, ?_⟩
    split <;> simp [StopsIn, hsent]

variable [Distance α] [Ord β] [Distance β] (h : Embeds W e)

include h

theorem dropWhile_map {ranges : List (Sent α)} {ack : α} (hstops : ∀ sent ∈ ranges, W sent.stop)
    (hack : W ack) :
    (ranges.map (Sent.map e)).dropWhile (fun sent => le sent.stop (e ack)) =
      (ranges.dropWhile fun sent => le sent.stop ack).map (Sent.map e) := by
  induction ranges with
  | nil => rfl
  | cons sent rest ih =>
      have hstop : le (sent.map e).stop (e ack) = le sent.stop ack := h.le (hstops sent (by simp)) hack
      simp only [List.map_cons, List.dropWhile_cons, hstop]
      split
      · exact ih fun s hs => hstops s (by simp [hs])
      · rfl

theorem advance_map {ack : α} (hlog : AllIn W log) (hack : W ack) :
    (log.map e).advance (e ack) = (log.advance ack).map e := by
  unfold advance
  simp only [high_map, h.ge hack hlog.high]
  simp only [map, List.isEmpty_map, h.le hack hlog.start, dropWhile_map h hlog.stops hack]
  split
  · rfl
  · split
    · rfl
    · split <;> rfl

theorem resendPieces_map {seq stop start : α} (now : Instant) (send : Nat) {sent : Sent α} (hseq : W seq)
    (hstop : W stop) (hstart : W start) (hsent : W sent.stop) :
    resendPieces (e seq) (e stop) now send (e start) (sent.map e) =
      (resendPieces seq stop now send start sent).map (Sent.map e) := by
  unfold resendPieces
  simp only [Sent.map, h.le hsent hseq, h.ge hstart hstop, h.lt hstart hseq, h.min hsent hstop,
    h.gt hsent hstop]
  split
  · rfl
  · split <;> split <;> rfl

theorem recordBuilt_map {seq stop : α} (now : Instant) (send : Nat) (hlog : AllIn W log) (hseq : W seq)
    (hstop : W stop) :
    (log.map e).recordBuilt (e seq) (e stop) now send =
      (log.recordBuilt seq stop now send).map (Sent.map e) := by
  have hpieces := piecesFrom_map hlog.start hlog.stops fun start sent hstart hsent =>
    resendPieces_map h now send hseq hstop hstart hsent
  unfold recordBuilt
  rw [← build_map, List.map_append, ← hpieces, high_map, h.gt hstop hlog.high]
  split <;> rfl

omit h [Ord α] [Distance α] [Ord β] [Distance β] in
theorem appendFresh_map (log : SendLog α) (stop : α) (now : Instant) (send : Nat) :
    (log.map e).appendFresh (e stop) now send = (log.appendFresh stop now send).map (map e) := by
  unfold appendFresh
  have hlast : (log.map e).ranges.getLast? = log.ranges.getLast?.map (Sent.map e) := by
    simp [map, List.getLast?_map]
  rw [hlast]
  cases log.ranges.getLast? with
  | none => rfl
  | some last =>
      have hjoins : (last.map e).joins (freshSent (e stop) now send) = last.joins (freshSent stop now send) := rfl
      have hlen : (log.map e).ranges.length = log.ranges.length := by simp [map]
      simp only [Option.map_some, hjoins, hlen]
      split
      · simp [map, List.map_dropLast, Sent.map]
      · split
        · simp [map, Sent.map, freshSent]
        · rfl

theorem sendOn_map [DecidableEq α] [DecidableEq β] {seq stop : α} (now : Instant) (hlog : AllIn W log)
    (hseq : W seq) (hstop : W stop) :
    (log.map e).sendOn (e seq) (e stop) now = (log.sendOn seq stop now).map e := by
  have hiff : e seq = (log.map e).high ↔ seq = log.high := by
    rw [high_map]
    exact ⟨fun heq => h.injective hseq hlog.high heq, fun heq => by rw [heq]⟩
  have hbuilt := recordBuilt_map h now log.sends hlog hseq hstop
  have hsends : (log.map e).sends = log.sends := rfl
  unfold sendOn
  simp only [hiff, hsends, appendFresh_map, hbuilt, replace_map]
  split
  · cases log.appendFresh stop now log.sends <;> rfl
  · rfl

theorem sendBuilt_map [DecidableEq α] [DecidableEq β] {seq stop : α} (now : Instant) (hlog : AllIn W log)
    (hseq : W seq) (hstop : W stop) :
    (log.map e).sendBuilt (e seq) (e stop) now = (log.sendBuilt seq stop now).map (List.map (Sent.map e)) := by
  have hiff : e seq = (log.map e).high ↔ seq = log.high := by
    rw [high_map]
    exact ⟨fun heq => h.injective hseq hlog.high heq, fun heq => by rw [heq]⟩
  have hbuilt := recordBuilt_map h now log.sends hlog hseq hstop
  have hsends : (log.map e).sends = log.sends := rfl
  unfold sendBuilt
  simp only [hiff, hsends, appendFresh_map, Option.isSome_map, hbuilt]
  split <;> rfl

theorem reaching_map {seq : α} (hlog : AllIn W log) (hseq : W seq) :
    (log.map e).reaching (e seq) = (log.reaching seq).map e := by
  unfold reaching
  rw [high_map, h.gt hseq hlog.high]
  split <;> rfl

theorem recordAt_map [DecidableEq α] [DecidableEq β] {seq stop : α} (now : Instant) (hlog : AllIn W log)
    (hseq : W seq) (hstop : W stop) :
    (log.map e).recordAt (e seq) (e stop) now = (log.recordAt seq stop now).map e := by
  have hbase := hlog.reaching hseq
  have hnumbered : AllIn W (log.reaching seq).numbered := ⟨hbase.start, hbase.stops⟩
  unfold recordAt
  rw [reaching_map h hlog hseq, numbered_map, sendOn_map h now hnumbered hseq hstop]

theorem record_map [DecidableEq α] [DecidableEq β] {una seq stop : α} {now : Instant} (hlog : AllIn W log)
    (huna : W una) (hseq : W seq) (hstop : W stop) :
    (log.map e).record (e una) (e seq) (e stop) now = (log.record una seq stop now).map e := by
  have hadv := hlog.advance huna
  have hmax : W (max seq (log.advance una).start) := max_cases hseq hadv.start
  have hstart : ((log.advance una).map e).start = e (log.advance una).start := rfl
  unfold record prepare
  simp only [advance_map h hlog huna, hstart, h.max hseq hadv.start, h.le hstop hmax]
  split
  · rfl
  · exact recordAt_map h now hadv hmax hstop

omit h [Ord α] [Distance α] [Ord β] [Distance β] in
theorem markAllLostBuilt_map (log : SendLog α) :
    (log.map e).markAllLostBuilt = log.markAllLostBuilt.map (Sent.map e) := by
  have hpieces : (log.map e).ranges.map lostPiece = (log.ranges.map lostPiece).map (Sent.map e) := by
    simp [map, lostPiece, Sent.map]
  unfold markAllLostBuilt
  rw [hpieces, build_map]

omit h [Ord α] [Distance α] [Ord β] [Distance β] in
theorem markAllLost_map (log : SendLog α) : (log.map e).markAllLost = log.markAllLost.map e := by
  unfold markAllLost
  rw [markAllLostBuilt_map, replace_map]

theorem boundaryPieces_map {boundary start : α} {sent : Sent α} (hboundary : W boundary) (hstart : W start)
    (hsent : W sent.stop) :
    boundaryPieces (e boundary) (e start) (sent.map e) =
      (boundaryPieces boundary start sent).map (Sent.map e) := by
  unfold boundaryPieces
  simp only [Sent.map, h.ge hstart hboundary, h.min hsent hboundary, h.gt hsent hboundary]
  split
  · rfl
  · split <;> rfl

theorem markLostBelowBuilt_map {boundary : α} (hlog : AllIn W log) (hboundary : W boundary) :
    (log.map e).markLostBelowBuilt (e boundary) = (log.markLostBelowBuilt boundary).map (Sent.map e) := by
  have hpieces := piecesFrom_map hlog.start hlog.stops fun start sent hstart hsent =>
    boundaryPieces_map h hboundary hstart hsent
  unfold markLostBelowBuilt
  rw [← build_map, ← hpieces]
  rfl

theorem markLostBelow_map {boundary : α} (hlog : AllIn W log) (hboundary : W boundary) :
    (log.map e).markLostBelow (e boundary) = (log.markLostBelow boundary).map e := by
  unfold markLostBelow
  rw [markLostBelowBuilt_map h hlog hboundary, replace_map]

end Embedding

end SendLog

end SmolNet
