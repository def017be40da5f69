/-!
# The stop channel

A coordinator tells any number of receivers to stop.  The channel keeps the newest signal only: a
receiver that has missed some is told how many, and then gets the newest.  A signal that nobody is
there to receive is not kept, and without a coordinator the channel is closed.
-/

namespace MockHttp

def StopChannel.capacity : Nat := 1

/-- The channel: whether there is a coordinator, how many signals have been put into the channel,
and how many of them each receiver is past; nothing is known of a receiver that was dropped. -/
structure StopChannel where
  coordinated : Bool
  sent : Nat
  positions : List (Option Nat)
  deriving DecidableEq

inductive Received where
  | signal
  | nothing
  | closed
  | lagged (missed : Nat)
  | gone
  deriving DecidableEq

namespace StopChannel

def new : StopChannel := ⟨true, 0, []⟩

def receiverCount (channel : StopChannel) : Nat :=
  channel.positions.countP Option.isSome

@[simp]
theorem receiverCount_new : new.receiverCount = 0 := rfl

/-- Adds a receiver, which sees only signals from now on. -/
def subscribe (channel : StopChannel) : StopChannel :=
  { channel with positions := channel.positions ++ [some channel.sent] }

@[simp]
theorem receiverCount_subscribe (channel : StopChannel) :
    channel.subscribe.receiverCount = channel.receiverCount + 1 := by
  simp [receiverCount, subscribe]

/-- Puts a signal into the channel if anybody listens. -/
def trigger (channel : StopChannel) : StopChannel :=
  if channel.receiverCount = 0 then channel else { channel with sent := channel.sent + 1 }

@[simp]
theorem receiverCount_trigger (channel : StopChannel) :
    channel.trigger.receiverCount = channel.receiverCount := by
  unfold trigger
  split <;> rfl

def dropReceiver (channel : StopChannel) (id : Nat) : StopChannel :=
  { channel with positions := channel.positions.set id none }

def dropCoordinator (channel : StopChannel) : StopChannel :=
  { channel with coordinated := false }

/-- An attempt to receive from a position, and the position after it.  A receiver whose next signal
is no longer kept goes on to the oldest that is. -/
def attempt (coordinated : Bool) (sent position : Nat) : Received × Nat :=
  if sent ≤ position then (if coordinated then .nothing else .closed, position)
  else
    let oldest := sent - capacity
    if position < oldest then (.lagged (oldest - position), oldest) else (.signal, position + 1)

def receive (channel : StopChannel) (id : Nat) : Received × StopChannel :=
  match channel.positions[id]? with
  | some (some position) =>
      let (received, position) := attempt channel.coordinated channel.sent position
      (received, { channel with positions := channel.positions.set id (some position) })
  | _ => (.gone, channel)

end StopChannel

end MockHttp
