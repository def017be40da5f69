import Mathlib.Data.List.Infix
import MockHttp.Proofs.Stop.Channel
/-!
# A stop signal on the way to the server

Two tasks share a stop channel.  The main task spawns the one that listens for stop signals, makes
the server, subscribes to the channel and waits; the listener tells the channel of the first signal
and is over.  A signal that comes before the subscription is told to nobody, and as the listener
speaks once only, the server then waits for good.
-/

namespace MockHttp

namespace Startup

/-! ## The two tasks -/

/-- What the main task does from the moment on at which it can be connected to. -/
inductive Action where
  | spawnListener
  | makeServer
  | subscribe
  | awaitStop
  deriving DecidableEq

/-- The actions of the main task in their order. -/
def order : List Action := [.spawnListener, .makeServer, .subscribe, .awaitStop]

/-- How far the task that listens for stop signals has come.  It is not there, it is there but does
not run yet, it waits for a signal, it has got one, or it has told the channel and is over. -/
inductive Listener where
  | absent
  | spawned
  | listening
  | signalled
  | ended
  deriving DecidableEq

/-- From when on a stop signal is taken by the listener and does not end the program. -/
def Listener.Runs (listener : Listener) : Prop :=
  listener = listening ∨ listener = signalled ∨ listener = ended

end Startup

/-- A state of the two tasks: what the main task has ahead of it, the receiver that it holds,
whether its wait is over, how far the listener is, how many stop signals have come, and the channel.
The main task keeps the coordinator of the channel throughout. -/
structure Startup where
  ahead : List Startup.Action
  receiver : Option Nat
  woken : Bool
  listener : Startup.Listener
  arrivals : Nat
  channel : StopChannel

namespace Startup

/-- The state in front of the given actions, with a new channel. -/
def begun (actions : List Action) : Startup :=
  ⟨actions, none, false, .absent, 0, .new⟩

/-- What can happen next: an action of the main task, a step of the listener or a stop signal. -/
inductive Move where
  | main (action : Action)
  | listen
  | arrive
  | notice
  | trigger
  deriving DecidableEq

/-- What a move does.  The wait of the main task is over once there is something to receive; until
then the main task has no move. -/
inductive Step (state : Startup) : Move → Startup → Prop
  | spawnListener {rest : List Action} (hnext : state.ahead = .spawnListener :: rest) :
      Step state (.main .spawnListener) { state with ahead := rest, listener := .spawned }
  | makeServer {rest : List Action} (hnext : state.ahead = .makeServer :: rest) :
      Step state (.main .makeServer) { state with ahead := rest }
  | subscribe {rest : List Action} (hnext : state.ahead = .subscribe :: rest) :
      Step state (.main .subscribe)
        { state with
          ahead := rest
          receiver := some state.channel.positions.length
          channel := state.channel.subscribe }
  | awaitStop {rest : List Action} {id : Nat} (hnext : state.ahead = .awaitStop :: rest)
      (hreceiver : state.receiver = some id) (hcame : (state.channel.receive id).1 ≠ .nothing) :
      Step state (.main .awaitStop)
        { state with ahead := rest, woken := true, channel := (state.channel.receive id).2 }
  | listen (hspawned : state.listener = .spawned) :
      Step state .listen { state with listener := .listening }
  | arrive (hruns : state.listener.Runs) :
      Step state .arrive { state with arrivals := state.arrivals + 1 }
  | notice (hlistening : state.listener = .listening) (harrived : 0 < state.arrivals) :
      Step state .notice { state with listener := .signalled }
  | trigger (hsignalled : state.listener = .signalled) :
      Step state .trigger { state with listener := .ended, channel := state.channel.trigger }

/-- The states that moves lead to, in whatever way the two tasks and the signals interleave. -/
inductive Run (start : Startup) : List Move → Startup → Prop
  | nil : Run start [] start
  | snoc {moves : List Move} {move : Move} {state next : Startup} (hrun : Run start moves state)
      (hstep : state.Step move next) : Run start (moves ++ [move]) next

/-- Whenever the listener has told the channel while the server holds its receiver and still waits,
there is something for that receiver to receive. -/
def NoSignalLost (actions : List Action) : Prop :=
  ∀ moves state id, (begun actions).Run moves state → state.listener = .ended →
    state.receiver = some id → state.woken = false → state.channel.Pending id

/-! ## What holds in every state -/

theorem pair_sublist_concat_iff {α : Type} {a b x : α} {l : List α} :
    [a, b].Sublist (l ++ [x]) ↔ [a, b].Sublist l ∨ b = x ∧ a ∈ l := by
  rw [← List.reverse_sublist, List.reverse_concat, ← @List.reverse_sublist _ [a, b] l]
  simp [List.cons_sublist_cons']

theorem pair_sublist_concat_of_ne {a b x : Move} {moves : List Move} (hne : b ≠ x) :
    [a, b].Sublist (moves ++ [x]) ↔ [a, b].Sublist moves := by
  simp [pair_sublist_concat_iff, hne]

/-- What moves from the beginning lead to.  A receiver that still waits is where it has been added,
in front of all signals but those that nobody was there for. -/
structure Sound (moves : List Move) (state : Startup) : Prop where
  nodup : state.ahead.Nodup
  coordinated : state.channel.coordinated = true
  spawned : state.listener ≠ .absent → .spawnListener ∉ state.ahead
  fresh : state.receiver = none →
    .main .subscribe ∉ moves ∧ state.channel.positions = [] ∧ state.channel.sent = 0
  held : state.receiver ≠ none → .main .subscribe ∈ moves ∧ .subscribe ∉ state.ahead
  asleep : ∀ id, state.receiver = some id → state.woken = false →
    state.channel.At id 0 ∧
      (0 < state.channel.sent ↔ [.main .subscribe, .trigger].Sublist moves)

theorem sound_begun {actions : List Action} (hnodup : actions.Nodup) :
    Sound [] (begun actions) where
  nodup := hnodup
  coordinated := rfl
  spawned h := absurd rfl h
  fresh _ := ⟨List.not_mem_nil, rfl, rfl⟩
  held h := absurd rfl h
  asleep _ h := by cases h

/-- Most moves concern neither the receiver nor the channel. -/
theorem Sound.aside {moves : List Move} {state : Startup} (hsound : Sound moves state) {move : Move}
    (htrigger : .trigger ≠ move) (hsubscribe : .main .subscribe ≠ move) {ahead : List Action}
    (hahead : ahead.Sublist state.ahead) {listener : Listener}
    (hspawned : listener ≠ .absent → .spawnListener ∉ ahead) (arrivals : Nat) :
    Sound (moves ++ [move])
      { state with ahead := ahead, listener := listener, arrivals := arrivals } where
  nodup := hsound.nodup.sublist hahead
  coordinated := hsound.coordinated
  spawned := hspawned
  fresh hnone := by
    obtain ⟨hmoves, hchannel⟩ := hsound.fresh hnone
    exact ⟨by simp [hmoves, hsubscribe], hchannel⟩
  held hsome := by
    obtain ⟨hmoves, hrest⟩ := hsound.held hsome
    exact ⟨List.mem_append_left _ hmoves, fun h => hrest (hahead.subset h)⟩
  asleep id hreceiver hwoken := by
    rw [pair_sublist_concat_of_ne htrigger]
    exact hsound.asleep id hreceiver hwoken

theorem Sound.subscribe {moves : List Move} {state : Startup} (hsound : Sound moves state)
    {rest : List Action} (hnext : state.ahead = .subscribe :: rest) :
    Sound (moves ++ [.main .subscribe])
      { state with
        ahead := rest
        receiver := some state.channel.positions.length
        channel := state.channel.subscribe } := by
  have hnodup := hsound.nodup
  rw [hnext, List.nodup_cons] at hnodup
  have hnone : state.receiver = none := by
    by_contra hsome
    exact (hsound.held hsome).2 (hnext ▸ List.mem_cons_self)
  obtain ⟨hmoves, -, hsent⟩ := hsound.fresh hnone
  constructor
  case nodup => exact hnodup.2
  case coordinated => exact hsound.coordinated
  case spawned => exact fun h hmem => hsound.spawned h (hnext ▸ List.mem_cons_of_mem _ hmem)
  case fresh => intro h; cases h
  case held => exact fun _ => ⟨by simp, hnodup.1⟩
  case asleep =>
    intro id hreceiver _
    obtain rfl := Option.some.inj hreceiver
    have hat := state.channel.at_subscribe
    rw [hsent] at hat
    refine ⟨hat, ?_⟩
    rw [pair_sublist_concat_of_ne (by decide)]
    -- neither has anything been sent nor was there a receiver before
    constructor
    · intro hlt
      exact absurd hsent (Nat.ne_of_gt hlt)
    · intro hsublist
      exact absurd (hsublist.subset List.mem_cons_self) hmoves

theorem Sound.trigger {moves : List Move} {state : Startup} (hsound : Sound moves state)
    (hsignalled : state.listener = .signalled) :
    Sound (moves ++ [.trigger])
      { state with listener := .ended, channel := state.channel.trigger } := by
  constructor
  case nodup => exact hsound.nodup
  case coordinated => exact (state.channel.coordinated_trigger).trans hsound.coordinated
  case spawned => exact fun _ => hsound.spawned (by rw [hsignalled]; decide)
  case fresh =>
    intro hnone
    obtain ⟨hmoves, hpositions, hsent⟩ := hsound.fresh hnone
    rw [StopChannel.trigger_of_positions_eq_nil hpositions]
    exact ⟨by simp [hmoves], hpositions, hsent⟩
  case held =>
    intro hsome
    obtain ⟨hmoves, hrest⟩ := hsound.held hsome
    exact ⟨List.mem_append_left _ hmoves, hrest⟩
  case asleep =>
    intro id hreceiver hwoken
    obtain ⟨hat, -⟩ := hsound.asleep id hreceiver hwoken
    have hmoves := (hsound.held (by rw [hreceiver]; simp)).1
    rw [pair_sublist_concat_iff]
    simp only [hat.trigger]
    exact ⟨hat, by simp [hmoves]⟩

theorem Sound.step {moves : List Move} {state next : Startup} (hsound : Sound moves state)
    {move : Move} (hstep : state.Step move next) : Sound (moves ++ [move]) next := by
  cases hstep with
  | @spawnListener rest hnext =>
      have hnodup := hsound.nodup
      rw [hnext, List.nodup_cons] at hnodup
      exact hsound.aside (by decide) (by decide) (hnext ▸ List.sublist_cons_self _ rest)
        (fun _ => hnodup.1) _
  | @makeServer rest hnext =>
      refine hsound.aside (by decide) (by decide) (hnext ▸ List.sublist_cons_self _ rest) ?_ _
      exact fun h hmem => hsound.spawned h (hnext ▸ List.mem_cons_of_mem _ hmem)
  | subscribe hnext => exact hsound.subscribe hnext
  | @awaitStop rest id hnext hreceiver _ =>
      have hahead : rest.Sublist state.ahead := hnext ▸ List.sublist_cons_self _ rest
      obtain ⟨hmoves, hrest⟩ := hsound.held (by rw [hreceiver]; simp)
      constructor
      case nodup => exact hsound.nodup.sublist hahead
      case coordinated => exact (state.channel.coordinated_receive id).trans hsound.coordinated
      case spawned => exact fun h hmem => hsound.spawned h (hahead.subset hmem)
      case fresh => intro hnone; rw [hreceiver] at hnone; cases hnone
      case held => exact fun _ => ⟨List.mem_append_left _ hmoves, fun h => hrest (hahead.subset h)⟩
      case asleep => intro _ _ hwoken; cases hwoken
  | listen hspawned =>
      exact hsound.aside (by decide) (by decide) (List.Sublist.refl _)
        (fun _ => hsound.spawned (by rw [hspawned]; decide)) _
  | arrive _ =>
      exact hsound.aside (by decide) (by decide) (List.Sublist.refl _) hsound.spawned _
  | notice hlistening _ =>
      exact hsound.aside (by decide) (by decide) (List.Sublist.refl _)
        (fun _ => hsound.spawned (by rw [hlistening]; decide)) _
  | trigger hsignalled => exact hsound.trigger hsignalled

theorem sound_of_run {actions : List Action} (hnodup : actions.Nodup) {moves : List Move}
    {state : Startup} (hrun : (begun actions).Run moves state) : Sound moves state := by
  induction hrun with
  | nil => exact sound_begun hnodup
  | snoc _ hstep ih => exact ih.step hstep

/-- While the server waits, its receiver has something pending exactly if the listener told the
channel behind the subscription. -/
theorem Sound.pending_iff {moves : List Move} {state : Startup} (hsound : Sound moves state)
    {id : Nat} (hreceiver : state.receiver = some id) (hwoken : state.woken = false) :
    state.channel.Pending id ↔ [.main .subscribe, .trigger].Sublist moves := by
  obtain ⟨hat, hsent⟩ := hsound.asleep id hreceiver hwoken
  rw [hat.pending_iff, hsent]

/-! ## The wait -/

/-- With something to receive the wait of the main task is over. -/
theorem exists_step_awaitStop {state : Startup} {rest : List Action} {id : Nat}
    (hnext : state.ahead = .awaitStop :: rest) (hreceiver : state.receiver = some id)
    (hpending : state.channel.Pending id) :
    ∃ next, state.Step (.main .awaitStop) next ∧ next.woken = true := by
  refine ⟨_, .awaitStop hnext hreceiver ?_, rfl⟩
  rcases StopChannel.pending_iff_receive.1 hpending with hsignal | ⟨missed, hlagged⟩
  · rw [hsignal]
    decide
  · rw [hlagged]
    simp

/-- The listener is over, and what it said did not reach the receiver that the server waits at. -/
structure Deaf (id : Nat) (state : Startup) : Prop where
  ended : state.listener = .ended
  receiver : state.receiver = some id
  asleep : state.woken = false
  nothing : (state.channel.receive id).1 = .nothing
  noListener : .spawnListener ∉ state.ahead
  noReceiver : .subscribe ∉ state.ahead

theorem Sound.deaf {moves : List Move} {state : Startup} (hsound : Sound moves state)
    (hended : state.listener = .ended) {id : Nat} (hreceiver : state.receiver = some id)
    (hwoken : state.woken = false) (hpending : ¬ state.channel.Pending id) : state.Deaf id where
  ended := hended
  receiver := hreceiver
  asleep := hwoken
  nothing :=
    StopChannel.receive_of_not_pending (hsound.asleep id hreceiver hwoken).1 hpending
      hsound.coordinated
  noListener := hsound.spawned (by rw [hended]; decide)
  noReceiver := (hsound.held (by rw [hreceiver]; simp)).2

theorem Deaf.step {id : Nat} {state next : Startup} (hdeaf : state.Deaf id) {move : Move}
    (hstep : state.Step move next) : next.Deaf id := by
  obtain ⟨hended, hreceiver, hasleep, hnothing, hlistener, hsubscribe⟩ := hdeaf
  cases hstep with
  | spawnListener hnext => exact absurd (hnext ▸ List.mem_cons_self) hlistener
  | makeServer hnext =>
      rw [hnext, List.mem_cons, not_or] at hlistener hsubscribe
      exact ⟨hended, hreceiver, hasleep, hnothing, hlistener.2, hsubscribe.2⟩
  | subscribe hnext => exact absurd (hnext ▸ List.mem_cons_self) hsubscribe
  | awaitStop hnext hown hcame =>
      obtain rfl := Option.some.inj (hown.symm.trans hreceiver)
      exact absurd hnothing hcame
  | listen hspawned => rw [hended] at hspawned; cases hspawned
  | arrive _ => exact ⟨hended, hreceiver, hasleep, hnothing, hlistener, hsubscribe⟩
  | notice hlistening _ => rw [hended] at hlistening; cases hlistening
  | trigger hsignalled => rw [hended] at hsignalled; cases hsignalled

/-- A server that has missed the signal waits for good, however many more signals come. -/
theorem Deaf.run {id : Nat} {state later : Startup} (hdeaf : state.Deaf id) {moves : List Move}
    (hrun : state.Run moves later) : later.Deaf id := by
  induction hrun with
  | nil => exact hdeaf
  | snoc _ hstep ih => exact ih.step hstep

/-- What the main task has ahead of it is the end of its actions, with the wait in it until that is
over. -/
theorem ahead_of_run {actions : List Action} (hwait : .awaitStop ∈ actions) {moves : List Move}
    {state : Startup} (hrun : (begun actions).Run moves state) :
    state.ahead <:+ actions ∧ (state.woken = false → .awaitStop ∈ state.ahead) := by
  induction hrun with
  | nil => exact ⟨List.suffix_rfl, fun _ => hwait⟩
  | @snoc moves move state next _ hstep ih =>
      have hother {action : Action} {rest : List Action} (hne : .awaitStop ≠ action)
          (hnext : state.ahead = action :: rest) :
          rest <:+ actions ∧ (state.woken = false → .awaitStop ∈ rest) := by
        rw [hnext] at ih
        refine ⟨(List.suffix_cons action rest).trans ih.1, fun hwoken => ?_⟩
        exact (List.mem_cons.1 (ih.2 hwoken)).resolve_left hne
      cases hstep with
      | spawnListener hnext => exact hother (by decide) hnext
      | makeServer hnext => exact hother (by decide) hnext
      | subscribe hnext => exact hother (by decide) hnext
      | awaitStop hnext _ _ =>
          rw [hnext] at ih
          exact ⟨(List.suffix_cons _ _).trans ih.1, by simp⟩
      | listen _ | arrive _ | notice _ _ | trigger _ => exact ih

/-- A server that holds its receiver and still waits has nothing else to do. -/
theorem ahead_eq_of_waiting {moves : List Move} {state : Startup}
    (hrun : (begun order).Run moves state) {id : Nat} (hreceiver : state.receiver = some id)
    (hwoken : state.woken = false) : state.ahead = [.awaitStop] := by
  have hends : ∀ rest ∈ order.tails, .subscribe ∉ rest → .awaitStop ∈ rest →
      rest = [.awaitStop] := by
    decide
  obtain ⟨hsuffix, hwait⟩ := ahead_of_run (by decide) hrun
  have hheld := (sound_of_run (by decide) hrun).held (by rw [hreceiver]; simp)
  exact hends _ ((List.mem_tails _ _).2 hsuffix) hheld.2 (hwait hwoken)

/-! ## Other orders -/

/-- As long as there is no receiver there is no listener either, and whatever the listener told the
channel it told behind the subscription. -/
structure Early (moves : List Move) (state : Startup) : Prop where
  fresh : state.receiver = none →
    state.listener = .absent ∧ [.subscribe, .spawnListener].Sublist state.ahead
  ended : state.listener = .ended → [.main .subscribe, .trigger].Sublist moves

theorem Early.step {moves : List Move} {state next : Startup} (hearly : Early moves state)
    (hsound : Sound moves state) {move : Move} (hstep : state.Step move next) :
    Early (moves ++ [move]) next := by
  obtain ⟨hfresh, hended⟩ := hearly
  have hkept (h : state.listener = .ended) :
      [.main .subscribe, .trigger].Sublist (moves ++ [move]) :=
    pair_sublist_concat_iff.2 (.inl (hended h))
  cases hstep with
  | spawnListener hnext =>
      refine ⟨fun hnone => ?_, fun h => by cases h⟩
      have hsublist := (hfresh hnone).2
      have hnodup := hsound.nodup
      rw [hnext] at hsublist hnodup
      exact absurd ((List.Sublist.of_cons_of_ne (by decide) hsublist).subset (by simp))
        (List.nodup_cons.1 hnodup).1
  | makeServer hnext =>
      refine ⟨fun hnone => ?_, hkept⟩
      obtain ⟨habsent, hsublist⟩ := hfresh hnone
      rw [hnext] at hsublist
      exact ⟨habsent, List.Sublist.of_cons_of_ne (by decide) hsublist⟩
  | subscribe _ =>
      refine ⟨fun hnone => ?_, hkept⟩
      cases hnone
  | awaitStop _ hreceiver _ =>
      refine ⟨fun hnone => ?_, hkept⟩
      rw [hreceiver] at hnone
      cases hnone
  | listen hspawned =>
      refine ⟨fun hnone => ?_, fun h => by cases h⟩
      rw [(hfresh hnone).1] at hspawned
      cases hspawned
  | arrive _ => exact ⟨hfresh, hkept⟩
  | notice hlistening _ =>
      refine ⟨fun hnone => ?_, fun h => by cases h⟩
      rw [(hfresh hnone).1] at hlistening
      cases hlistening
  | trigger hsignalled =>
      have hreceiver : state.receiver ≠ none := by
        intro hnone
        rw [(hfresh hnone).1] at hsignalled
        cases hsignalled
      exact ⟨fun hnone => absurd hnone hreceiver,
        fun _ => pair_sublist_concat_iff.2 (.inr ⟨rfl, (hsound.held hreceiver).1⟩)⟩

theorem early_of_run {actions : List Action} (hnodup : actions.Nodup)
    (hearly : [.subscribe, .spawnListener].Sublist actions) {moves : List Move} {state : Startup}
    (hrun : (begun actions).Run moves state) : Early moves state := by
  induction hrun with
  | nil =>
      refine ⟨fun _ => ⟨rfl, hearly⟩, fun hended => ?_⟩
      cases hended
  | snoc hrun hstep ih => exact ih.step (sound_of_run hnodup hrun) hstep

/-- The main task does what stands in front of its subscription and its wait without a stop. -/
theorem run_of_forall {before : List Action} (rest : List Action)
    (hbefore : ∀ action ∈ before, action = .spawnListener ∨ action = .makeServer) :
    (begun (before ++ rest)).Run (before.map .main)
      ⟨rest, none, false, if .spawnListener ∈ before then .spawned else .absent, 0, .new⟩ := by
  induction before using List.reverseRecOn generalizing rest with
  | nil => exact .nil
  | append_singleton before action ih =>
      have hrun := ih (action :: rest) fun a ha => hbefore a (List.mem_append_left _ ha)
      rw [List.append_assoc, List.singleton_append, List.map_append, List.map_singleton]
      rcases hbefore action (by simp) with rfl | rfl
      · rw [if_pos (by simp)]
        exact hrun.snoc (.spawnListener rfl)
      · simp only [List.mem_append, List.mem_singleton, reduceCtorEq, or_false]
        exact hrun.snoc (.makeServer rfl)

/-- A listener that is there before the receiver can speak too early. -/
theorem exists_run_lost {before : List Action} (after : List Action)
    (hbefore : ∀ action ∈ before, action = .spawnListener ∨ action = .makeServer)
    (hlistener : .spawnListener ∈ before) :
    ∃ moves state, (begun (before ++ .subscribe :: after)).Run moves state ∧
      state.listener = .ended ∧ state.receiver = some 0 ∧ state.woken = false ∧
        ¬ state.channel.Pending 0 := by
  have hrun := run_of_forall (.subscribe :: after) hbefore
  rw [if_pos hlistener] at hrun
  refine ⟨_, _, ((((hrun.snoc (.listen rfl)).snoc (.arrive (.inl rfl))).snoc
    (.notice rfl (Nat.succ_pos _))).snoc (.trigger rfl)).snoc (.subscribe rfl), rfl, rfl, rfl, ?_⟩
  exact (StopChannel.at_subscribe _).pending_iff.not.2 (Nat.lt_irrefl _)

theorem pair_sublist_iff {α : Type} {a b : α} {before after : List α}
    (hnodup : (before ++ a :: after).Nodup) :
    [a, b].Sublist (before ++ a :: after) ↔ b ∈ after := by
  induction before with
  | nil =>
      have hfirst : a ∉ after := (List.nodup_cons.1 hnodup).1
      have hnot : ¬ [a, b].Sublist after := fun h => hfirst (h.subset List.mem_cons_self)
      rw [List.nil_append, List.cons_sublist_cons', or_iff_right hnot]
      simp
  | cons first before ih =>
      rw [List.cons_append, List.nodup_cons] at hnodup
      have hne : a ≠ first := by
        rintro rfl
        exact hnodup.1 (by simp)
      rw [List.cons_append, List.cons_sublist_cons', ih hnodup.2]
      simp [hne]

/-- Whether a signal can get lost is a matter of the order alone: none does exactly if the server
subscribes before there is a listener. -/
theorem noSignalLost_iff {actions : List Action} (hnodup : actions.Nodup)
    (hlistener : .spawnListener ∈ actions) (hwait : [.subscribe, .awaitStop].Sublist actions) :
    NoSignalLost actions ↔ [.subscribe, .spawnListener].Sublist actions := by
  constructor
  · intro hkept
    obtain ⟨before, after, rfl⟩ := List.append_of_mem (hwait.subset List.mem_cons_self)
    rw [pair_sublist_iff hnodup] at hwait ⊢
    obtain ⟨-, -, hapart⟩ := List.nodup_append.1 hnodup
    have hbefore : ∀ action ∈ before, action = .spawnListener ∨ action = .makeServer := by
      intro action haction
      cases action with
      | spawnListener | makeServer => simp
      | subscribe => exact absurd rfl (hapart _ haction _ List.mem_cons_self)
      | awaitStop => exact absurd rfl (hapart _ haction _ (List.mem_cons_of_mem _ hwait))
    by_contra hbehind
    have hfront : .spawnListener ∈ before := by simpa [hbehind] using hlistener
    obtain ⟨moves, state, hrun, hended, hreceiver, hwoken, hpending⟩ :=
      exists_run_lost after hbefore hfront
    exact hpending (hkept moves state 0 hrun hended hreceiver hwoken)
  · intro hearly moves state id hrun hended hreceiver hwoken
    rw [(sound_of_run hnodup hrun).pending_iff hreceiver hwoken]
    exact (early_of_run hnodup hearly hrun).ended hended

/-! ## Which signals get through -/

/-- A signal gets through to the waiting server exactly if the listener tells the channel of it
behind the subscription.  Then the wait is over with the next move of the main task.  Otherwise it
is never over, whatever comes. -/
theorem signal_kept_iff {moves : List Move} {state : Startup} {id : Nat}
    (hrun : (begun order).Run moves state) (hended : state.listener = .ended)
    (hreceiver : state.receiver = some id) (hwoken : state.woken = false) :
    (state.channel.Pending id ↔ [.main .subscribe, .trigger].Sublist moves) ∧
    (state.channel.Pending id →
      ∃ next, state.Step (.main .awaitStop) next ∧ next.woken = true) ∧
    (¬ state.channel.Pending id →
      ∀ more later, state.Run more later → later.woken = false) := by
  have hsound : Sound moves state := sound_of_run (by decide) hrun
  refine ⟨hsound.pending_iff hreceiver hwoken, ?_, ?_⟩
  · exact exists_step_awaitStop (ahead_eq_of_waiting hrun hreceiver hwoken) hreceiver
  · intro hpending more later hmore
    exact ((hsound.deaf hended hreceiver hwoken hpending).run hmore).asleep

/-- A signal that comes once the server has subscribed. -/
def timelySignal : List Move :=
  [.main .spawnListener, .main .makeServer, .listen, .main .subscribe, .arrive, .notice, .trigger]

theorem kept_timelySignal :
    ∃ state next, (begun order).Run timelySignal state ∧ state.channel.Pending 0 ∧
      state.Step (.main .awaitStop) next ∧ next.woken = true := by
  have hrun := (((((((Run.nil : (begun order).Run [] _).snoc (.spawnListener rfl)).snoc
    (.makeServer rfl)).snoc (.listen rfl)).snoc (.subscribe rfl)).snoc (.arrive (.inl rfl))).snoc
    (.notice rfl (by decide))).snoc (.trigger rfl)
  obtain ⟨hpending, hover, -⟩ := signal_kept_iff hrun rfl rfl rfl
  have htold := hpending.2 (by decide)
  obtain ⟨next, hstep, hwoken⟩ := hover htold
  exact ⟨_, next, hrun, htold, hstep, hwoken⟩

/-- A signal that comes while the server is being made, and one more that comes later. -/
def earlySignal : List Move :=
  [.main .spawnListener, .listen, .arrive, .notice, .trigger, .main .makeServer, .main .subscribe,
    .arrive]

/-- The program can lose a signal: nobody is told of it, and the server then waits for good. -/
theorem lost_earlySignal :
    ¬ NoSignalLost order ∧
      ∃ state, (begun order).Run earlySignal state ∧ state.listener = .ended ∧
        state.receiver = some 0 ∧ state.woken = false ∧ ¬ state.channel.Pending 0 ∧
          ∀ more later, state.Run more later → later.woken = false := by
  have hrun := ((((((((Run.nil : (begun order).Run [] _).snoc (.spawnListener rfl)).snoc
    (.listen rfl)).snoc (.arrive (.inl rfl))).snoc (.notice rfl (by decide))).snoc
    (.trigger rfl)).snoc (.makeServer rfl)).snoc (.subscribe rfl)).snoc (.arrive (.inr (.inr rfl)))
  have hsound : Sound earlySignal _ := sound_of_run (by decide) hrun
  have hpending := (hsound.pending_iff rfl rfl).not.2 (by decide)
  refine ⟨fun hkept => hpending (hkept _ _ 0 hrun rfl rfl rfl), _, hrun, rfl, rfl, rfl, hpending,
    ?_⟩
  exact fun more later hmore => ((hsound.deaf rfl rfl rfl hpending).run hmore).asleep

end Startup

end MockHttp
