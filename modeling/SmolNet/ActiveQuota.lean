import SmolNet.InetOptions

/-!
# Counting active messages

What an owner may be sent after `active` was set: data messages, the notice that a quota is used up,
and notices that reading has ended.  `Counted` relates what was sent to what is left of the setting.
-/

namespace SmolNet.InetBackend

inductive MessageKind where
  | data | passive | terminal
deriving DecidableEq, Repr

/-- How many data messages a setting allows, and which notice stands right behind them. -/
def Law (setting : Active) (count : Nat) (ending : List MessageKind) : Prop :=
  match setting with
  | .off => count = 0 ∧ ending = []
  | .on => ending = []
  | .once => count ≤ 1 ∧ ending = []
  | .count quota =>
      count ≤ quota.messages ∧ ending = if count = quota.messages then [.passive] else []

/-- What is left of a setting after some data messages, as long as it is not used up. -/
def Left (setting : Active) (count : Nat) (active : Active) : Prop :=
  match setting with
  | .off => False
  | .on => active = .on
  | .once => count = 0 ∧ active = .once
  | .count quota => ∃ left, active = .count left ∧ count + left.messages = quota.messages

/-- The messages since a setting: data, then the notice, then nothing but the end of reading. -/
def Kept (setting : Active) (kinds : List MessageKind) : Prop :=
  ∃ count ending rest, kinds = List.replicate count .data ++ ending ++ rest ∧
    (∀ kind ∈ rest, kind = .terminal) ∧ Law setting count ending

def Counted (setting : Active) (kinds : List MessageKind) (active : Active) : Prop :=
  ∃ count ending rest, kinds = List.replicate count .data ++ ending ++ rest ∧
    (∀ kind ∈ rest, kind = .terminal) ∧ Law setting count ending ∧
    (active ≠ .off → ending = [] ∧ rest = [] ∧ Left setting count active)

variable {setting active : Active} {kinds : List MessageKind}

theorem Counted.kept (h : Counted setting kinds active) : Kept setting kinds := by
  obtain ⟨count, ending, rest, hkinds, hrest, hlaw, -⟩ := h
  exact ⟨count, ending, rest, hkinds, hrest, hlaw⟩

theorem Counted.start (setting : Active) : Counted setting [] setting := by
  refine ⟨0, [], [], rfl, by simp, ?_, ?_⟩
  · cases setting with
    | count quota =>
        have := quota.positive
        exact ⟨Nat.zero_le _, by rw [if_neg (by omega)]⟩
    | _ => simp [Law]
  · intro hon
    cases setting with
    | off => exact absurd rfl hon
    | count quota => exact ⟨rfl, rfl, quota, rfl, Nat.zero_add _⟩
    | _ => simp [Left]

theorem Counted.terminal (h : Counted setting kinds active) {ended : List MessageKind}
    (hended : ∀ kind ∈ ended, kind = .terminal) : Counted setting (kinds ++ ended) .off := by
  obtain ⟨count, ending, rest, hkinds, hrest, hlaw, -⟩ := h
  refine ⟨count, ending, rest ++ ended, ?_, ?_, hlaw, fun hoff => absurd rfl hoff⟩
  · rw [hkinds, List.append_assoc]
  · intro kind hkind
    rcases List.mem_append.1 hkind with hkind | hkind
    · exact hrest kind hkind
    · exact hended kind hkind

/-- The kinds of the messages for one packet. -/
def consumeKinds (active : Active) : List MessageKind :=
  if (consumeActive active).2 then [.data, .passive] else [.data]

/-- One more data message, with its notice, is within the setting. -/
theorem Counted.consume (h : Counted setting kinds active) (hactive : active ≠ .off) :
    Counted setting (kinds ++ consumeKinds active) (consumeActive active).1 := by
  obtain ⟨count, ending, rest, hkinds, -, hlaw, hleft⟩ := h
  obtain ⟨rfl, rfl, hremains⟩ := hleft hactive
  have hdata : kinds ++ [.data] = List.replicate (count + 1) .data ++ [] ++ [] := by
    rw [hkinds, List.replicate_succ']
    simp
  cases setting with
  | off => exact hremains.elim
  | on =>
      obtain rfl : active = .on := hremains
      exact ⟨count + 1, [], [], hdata, by simp, rfl, fun _ => ⟨rfl, rfl, rfl⟩⟩
  | once =>
      obtain ⟨rfl, rfl⟩ : count = 0 ∧ active = .once := hremains
      exact ⟨1, [], [], hdata, by simp, ⟨le_refl 1, rfl⟩, fun hoff => absurd rfl hoff⟩
  | count quota =>
      obtain ⟨left, rfl, hsum⟩ := hremains
      have hpositive := left.positive
      by_cases hlast : left.messages = 1
      · -- the last message of the quota, with the notice behind it
        have hconsume : consumeActive (.count left) = (.off, true) := by simp [consumeActive, hlast]
        refine ⟨count + 1, [.passive], [], ?_, by simp, ?_, ?_⟩
        · rw [consumeKinds, hconsume, if_pos rfl]
          rw [show [MessageKind.data, .passive] = [.data] ++ [.passive] from rfl, ← List.append_assoc, hdata]
          simp
        · exact ⟨by omega, by rw [if_pos (by omega)]⟩
        · intro hoff
          rw [hconsume] at hoff
          exact absurd rfl hoff
      · refine ⟨count + 1, [], [], ?_, by simp, ?_, ?_⟩
        · simp only [consumeKinds, consumeActive, hlast, dif_neg, not_false_eq_true]
          exact hdata
        · exact ⟨by omega, by rw [if_neg (by omega)]⟩
        · intro _
          refine ⟨rfl, rfl, ⟨left.messages - 1, by omega, by have := left.bounded; omega⟩, ?_, ?_⟩
          · simp [consumeActive, hlast]
          · show count + 1 + (left.messages - 1) = quota.messages
            omega

/-- Whether the messages that were sent use a setting up. -/
def UsedUp (setting : Active) (kinds : List MessageKind) : Prop :=
  match setting with
  | .off => True
  | .on => False
  | .once => .data ∈ kinds
  | .count quota => kinds.count .data = quota.messages

theorem Counted.usedUp (h : Counted setting kinds active) (hused : UsedUp setting kinds) :
    active = .off := by
  by_contra hactive
  obtain ⟨count, ending, rest, hkinds, -, -, hleft⟩ := h
  obtain ⟨rfl, rfl, hremains⟩ := hleft hactive
  rw [List.append_nil, List.append_nil] at hkinds
  cases setting with
  | off => exact hremains
  | on => exact hused
  | once =>
      obtain ⟨rfl, -⟩ : count = 0 ∧ active = .once := hremains
      rw [hkinds] at hused
      exact absurd hused (by simp [UsedUp])
  | count quota =>
      obtain ⟨left, -, hsum⟩ := hremains
      have hpositive := left.positive
      have hcount : kinds.count .data = count := by rw [hkinds, List.count_replicate_self]
      have : kinds.count .data = quota.messages := hused
      omega

end SmolNet.InetBackend
