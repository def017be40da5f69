import Mathlib.Order.Basic
import Mathlib.Order.Nat
import Mathlib.Tactic.SplitIfs
import MockHttp.Proofs.Stop.Channel
/-!
# What a receiver has not taken yet

All that a receiver can learn of a channel is whether there is a coordinator and how many signals
it has not taken yet.  Each operation changes that number in its own way, and one that is done at
another receiver not at all.
-/

namespace MockHttp.StopChannel

variable {channel : StopChannel} {id position : Nat}

/-- How many signals a receiver has not taken yet, if it listens. -/
def unread? (channel : StopChannel) (id : Nat) : Option Nat :=
  match channel.positions[id]? with
  | some (some position) => some (channel.sent - position)
  | _ => none

/-- What an attempt yields with so many signals not taken yet. -/
def outcome (coordinated : Bool) : Option Nat → Received
  | none => .gone
  | some 0 => if coordinated then .nothing else .closed
  | some 1 => .signal
  | some (missed + 2) => .lagged (missed + 1)

/-- How many of so many signals are not taken yet behind an attempt. -/
def remaining (unread : Nat) : Nat :=
  if unread ≤ capacity then 0 else capacity

/-- No receiver is past more signals than there were. -/
def Bounded (channel : StopChannel) : Prop :=
  ∀ id position, channel.At id position → position ≤ channel.sent

theorem At.unread? (hat : channel.At id position) :
    channel.unread? id = some (channel.sent - position) := by
  rw [At] at hat
  rw [StopChannel.unread?, hat]

theorem unread?_eq_some_iff {unread : Nat} :
    channel.unread? id = some unread ↔
      ∃ position, channel.At id position ∧ channel.sent - position = unread := by
  constructor
  · intro hunread
    rw [StopChannel.unread?] at hunread
    split at hunread
    · rename_i position hat
      exact ⟨position, hat, Option.some.inj hunread⟩
    · cases hunread
  · rintro ⟨position, hat, rfl⟩
    exact hat.unread?

theorem unread?_eq_none_iff :
    channel.unread? id = none ↔ ∀ position, ¬ channel.At id position := by
  simp [Option.eq_none_iff_forall_ne_some, unread?_eq_some_iff]

theorem unread?_eq_none_of_le (hle : channel.positions.length ≤ id) :
    channel.unread? id = none := by
  rw [unread?, List.getElem?_eq_none hle]

theorem unread?_congr {other : StopChannel} (hsent : other.sent = channel.sent)
    (hposition : other.positions[id]? = channel.positions[id]?) :
    other.unread? id = channel.unread? id := by
  rw [unread?, unread?, hsent, hposition]

theorem isSome_unread? : (channel.unread? id).isSome = (channel.positions[id]?.join).isSome := by
  rw [unread?]
  split
  · rename_i position hat
    rw [hat]
    rfl
  · rename_i hnone
    cases hposition : channel.positions[id]? with
    | none => rfl
    | some entry =>
        cases entry with
        | none => rfl
        | some position => exact absurd hposition (hnone position)

/-- Those that listen are counted. -/
theorem receiverCount_eq (channel : StopChannel) :
    channel.receiverCount =
      ((List.range channel.positions.length).filter fun id =>
        (channel.unread? id).isSome).length := by
  have hpositions : channel.positions =
      (List.range channel.positions.length).map fun id => channel.positions[id]?.join := by
    refine List.ext_getElem (by simp) fun id hid _ => ?_
    rw [List.getElem_map, List.getElem_range, List.getElem?_eq_getElem hid]
    rfl
  simp only [isSome_unread?]
  calc channel.receiverCount
      = ((List.range channel.positions.length).map fun id =>
          channel.positions[id]?.join).countP Option.isSome :=
        congrArg (List.countP Option.isSome) hpositions
    _ = _ := by
        rw [List.countP_map, List.countP_eq_length_filter]
        rfl

/-! ## Attempts to receive -/

theorem fst_attempt (coordinated : Bool) (sent position : Nat) :
    (attempt coordinated sent position).1 = outcome coordinated (some (sent - position)) := by
  rw [attempt, capacity]
  by_cases hle : sent ≤ position
  · rw [if_pos hle, Nat.sub_eq_zero_of_le hle]
    rfl
  · rw [if_neg hle]
    by_cases hlagged : position < sent - 1
    · obtain ⟨missed, hmissed⟩ : ∃ missed, sent = position + missed + 2 :=
        ⟨sent - position - 2, by omega⟩
      have hunread : sent - position = missed + 2 := by omega
      have hbehind : sent - 1 - position = missed + 1 := by omega
      rw [hunread, outcome, ← hbehind]
      exact congrArg Prod.fst (if_pos hlagged)
    · have hunread : sent - position = 1 := by omega
      rw [hunread]
      exact congrArg Prod.fst (if_neg hlagged)

theorem remaining_le (unread : Nat) : remaining unread ≤ unread := by
  rw [remaining, capacity]
  split_ifs <;> omega

theorem snd_attempt (coordinated : Bool) {sent position : Nat} (hle : position ≤ sent) :
    (attempt coordinated sent position).2 = sent - remaining (sent - position) := by
  rw [attempt, remaining, capacity]
  by_cases hall : sent ≤ position
  · rw [if_pos hall, if_pos (Nat.sub_le_of_le_add (hall.trans (Nat.le_add_left _ _)))]
    exact Nat.le_antisymm hle hall
  · rw [if_neg hall]
    dsimp only
    split_ifs <;> dsimp only <;> omega

theorem receive_of_unread?_eq_none (hnone : channel.unread? id = none) :
    channel.receive id = (.gone, channel) := by
  rw [unread?_eq_none_iff] at hnone
  rw [receive]
  split
  · rename_i position hat
    exact absurd hat (hnone position)
  · rfl

/-- What an attempt yields is told by the coordinator and the signals not taken yet. -/
theorem fst_receive (channel : StopChannel) (id : Nat) :
    (channel.receive id).1 = outcome channel.coordinated (channel.unread? id) := by
  cases hunread : channel.unread? id with
  | none =>
      rw [receive_of_unread?_eq_none hunread]
      rfl
  | some unread =>
      obtain ⟨position, hat, rfl⟩ := unread?_eq_some_iff.1 hunread
      rw [receive_eq hat]
      exact fst_attempt channel.coordinated channel.sent position

theorem outcome_some_eq_nothing_iff {coordinated : Bool} {unread : Nat} :
    outcome coordinated (some unread) = .nothing ↔ coordinated = true ∧ unread = 0 := by
  match unread with
  | 0 => cases coordinated <;> simp [outcome]
  | 1 => simp [outcome]
  | missed + 2 => simp [outcome]

theorem outcome_some_ne_gone (coordinated : Bool) (unread : Nat) :
    outcome coordinated (some unread) ≠ .gone := by
  match unread with
  | 0 => cases coordinated <;> simp [outcome]
  | 1 => simp [outcome]
  | missed + 2 => simp [outcome]

theorem unread?_receive_self (hbounded : channel.Bounded) (id : Nat) :
    (channel.receive id).2.unread? id = (channel.unread? id).map remaining := by
  cases hunread : channel.unread? id with
  | none =>
      rw [receive_of_unread?_eq_none hunread]
      exact hunread
  | some unread =>
      obtain ⟨position, hat, rfl⟩ := unread?_eq_some_iff.1 hunread
      have hlt : id < channel.positions.length := (List.getElem?_eq_some_iff.1 hat).1
      have hnext := snd_attempt channel.coordinated (hbounded id position hat)
      have hrest : remaining (channel.sent - position) ≤ channel.sent :=
        (remaining_le _).trans (Nat.sub_le _ _)
      have hat' (next : Nat) :
          At { channel with positions := channel.positions.set id (some next) } id next :=
        List.getElem?_set_self hlt
      rw [receive_eq hat, (hat' _).unread?, hnext, Option.map_some]
      exact congrArg some (Nat.sub_sub_self hrest)

theorem unread?_receive_of_ne {other : Nat} (hne : other ≠ id) (channel : StopChannel) :
    (channel.receive other).2.unread? id = channel.unread? id := by
  rw [receive]
  split
  · exact unread?_congr rfl (List.getElem?_set_ne hne)
  · rfl

/-! ## Other operations -/

theorem unread?_subscribe (channel : StopChannel) (id : Nat) :
    channel.subscribe.unread? id =
      if id = channel.positions.length then some 0 else channel.unread? id := by
  rcases lt_trichotomy id channel.positions.length with hlt | rfl | hgt
  · rw [if_neg hlt.ne]
    exact unread?_congr rfl (List.getElem?_append_left hlt)
  · rw [if_pos rfl, (at_subscribe channel).unread?]
    exact congrArg some (Nat.sub_self channel.sent)
  · have hlength : channel.subscribe.positions.length ≤ id := by
      simpa [subscribe] using Nat.succ_le_of_lt hgt
    rw [if_neg hgt.ne', unread?_eq_none_of_le hlength, unread?_eq_none_of_le hgt.le]

theorem unread?_dropReceiver (channel : StopChannel) (id other : Nat) :
    (channel.dropReceiver other).unread? id =
      if other = id then none else channel.unread? id := by
  split
  · rename_i hid
    rw [unread?_eq_none_iff, hid]
    intro position hat
    rw [At, dropReceiver, List.getElem?_set_self'] at hat
    simp at hat
  · rename_i hne
    exact unread?_congr rfl (List.getElem?_set_ne hne)

theorem unread?_trigger (hbounded : channel.Bounded) (id : Nat) :
    channel.trigger.unread? id = (channel.unread? id).map (· + 1) := by
  cases hunread : channel.unread? id with
  | none =>
      rw [unread?_eq_none_iff] at hunread
      rw [Option.map_none, unread?_eq_none_iff, trigger]
      split <;> exact hunread
  | some unread =>
      obtain ⟨position, hat, rfl⟩ := unread?_eq_some_iff.1 hunread
      have hle := hbounded id position hat
      rw [hat.trigger, Option.map_some, ← Nat.sub_add_comm hle]
      exact At.unread? hat

theorem bounded_new : Bounded new := by
  intro id position hat
  cases hat

theorem Bounded.subscribe (hbounded : channel.Bounded) : channel.subscribe.Bounded := by
  intro id position hat
  rw [At, StopChannel.subscribe, List.getElem?_append] at hat
  split at hat
  · exact hbounded id position hat
  · rw [List.getElem?_singleton] at hat
    split_ifs at hat
    exact (Option.some.inj (Option.some.inj hat)).ge

theorem Bounded.trigger (hbounded : channel.Bounded) : channel.trigger.Bounded := by
  rw [StopChannel.trigger]
  split
  · exact hbounded
  · exact fun id position hat => Nat.le_succ_of_le (hbounded id position hat)

theorem Bounded.set (hbounded : channel.Bounded) (other : Nat) {entry : Option Nat}
    (hentry : ∀ position, entry = some position → position ≤ channel.sent) :
    Bounded { channel with positions := channel.positions.set other entry } := by
  intro id position hat
  rw [At, List.getElem?_set] at hat
  split_ifs at hat
  · exact hentry position (Option.some.inj hat)
  · exact hbounded id position hat

theorem Bounded.receive (hbounded : channel.Bounded) (id : Nat) :
    (channel.receive id).2.Bounded := by
  cases hunread : channel.unread? id with
  | none =>
      rw [receive_of_unread?_eq_none hunread]
      exact hbounded
  | some unread =>
      obtain ⟨position, hat, -⟩ := unread?_eq_some_iff.1 hunread
      have hle := hbounded id position hat
      rw [receive_eq hat]
      refine hbounded.set id fun next hnext => ?_
      rw [← Option.some.inj hnext, snd_attempt channel.coordinated hle]
      exact Nat.sub_le _ _

theorem Bounded.dropReceiver (hbounded : channel.Bounded) (id : Nat) :
    (channel.dropReceiver id).Bounded :=
  hbounded.set id fun _ hnone => by cases hnone

end MockHttp.StopChannel
