import Mathlib.Data.List.Basic
import MockHttp.StopChannel
/-!
# What receivers have ahead of them

A signal is put in front of the receivers that listen at that moment, and of no others.  So a
receiver has something pending exactly if an attempt to receive yields a signal, or tells of signals
that were missed.
-/

namespace MockHttp.StopChannel

variable {channel : StopChannel} {id position : Nat}

/-- A receiver listens from a position on. -/
def At (channel : StopChannel) (id position : Nat) : Prop :=
  channel.positions[id]? = some (some position)

/-- A receiver listens and has not taken all signals that were put into the channel. -/
def Pending (channel : StopChannel) (id : Nat) : Prop :=
  ∃ position, channel.At id position ∧ position < channel.sent

theorem At.unique {other : Nat} (hat : channel.At id position) (hother : channel.At id other) :
    position = other := by
  unfold At at hat hother
  rw [hat] at hother
  exact Option.some.inj (Option.some.inj hother)

theorem At.pending_iff (hat : channel.At id position) :
    channel.Pending id ↔ position < channel.sent := by
  constructor
  · rintro ⟨other, hother, hlt⟩
    rwa [hat.unique hother]
  · exact fun hlt => ⟨position, hat, hlt⟩

theorem At.receiverCount_pos (hat : channel.At id position) : 0 < channel.receiverCount := by
  rw [receiverCount, List.countP_pos_iff]
  exact ⟨some position, List.mem_of_getElem? hat, rfl⟩

/-- Whoever listens gets a signal put in front of it. -/
theorem At.trigger (hat : channel.At id position) :
    channel.trigger = { channel with sent := channel.sent + 1 } := by
  have hcount := hat.receiverCount_pos
  rw [StopChannel.trigger, if_neg (by omega)]

/-- A signal that nobody is there to receive is not kept. -/
theorem trigger_of_positions_eq_nil (hnobody : channel.positions = []) :
    channel.trigger = channel := by
  rw [trigger, if_pos]
  simp [receiverCount, hnobody]

/-- A receiver starts behind the signals that are in the channel already. -/
theorem at_subscribe (channel : StopChannel) :
    channel.subscribe.At channel.positions.length channel.sent := by
  simp [At, subscribe]

theorem receive_eq (hat : channel.At id position) :
    channel.receive id =
      ((attempt channel.coordinated channel.sent position).1,
        { channel with
          positions := channel.positions.set id
            (some (attempt channel.coordinated channel.sent position).2) }) := by
  unfold At at hat
  rw [receive, hat]

theorem coordinated_receive (channel : StopChannel) (id : Nat) :
    (channel.receive id).2.coordinated = channel.coordinated := by
  unfold receive
  split <;> rfl

theorem coordinated_trigger (channel : StopChannel) :
    channel.trigger.coordinated = channel.coordinated := by
  unfold trigger
  split <;> rfl

/-- Without anything pending an attempt yields nothing, as long as there is a coordinator. -/
theorem receive_of_not_pending (hat : channel.At id position)
    (hpending : ¬ channel.Pending id) (hcoordinated : channel.coordinated = true) :
    (channel.receive id).1 = .nothing := by
  rw [hat.pending_iff, Nat.not_lt] at hpending
  rw [receive_eq hat, attempt, if_pos hpending, hcoordinated]
  rfl

/-- What is pending is received: the next signal itself, or word of how many were missed. -/
theorem pending_iff_receive :
    channel.Pending id ↔
      (channel.receive id).1 = .signal ∨ ∃ missed, (channel.receive id).1 = .lagged missed := by
  cases hposition : channel.positions[id]? with
  | none => simp [Pending, At, receive, hposition]
  | some entry =>
      cases entry with
      | none => simp [Pending, At, receive, hposition]
      | some position =>
          have hat : channel.At id position := hposition
          rw [hat.pending_iff, receive_eq hat, attempt]
          by_cases hlt : position < channel.sent
          · rw [if_neg (by omega)]
            dsimp only
            split <;> simp [hlt]
          · rw [if_pos (by omega)]
            cases channel.coordinated <;> simp [hlt]

end MockHttp.StopChannel
