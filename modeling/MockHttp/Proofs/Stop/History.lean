import Mathlib.Algebra.GroupWithZero.Nat
import Mathlib.Data.List.Induction
import Mathlib.Data.List.Nodup
import Mathlib.Data.List.TakeWhile
import MockHttp.Proofs.Stop.Unread
/-!
# What has happened to a stop channel

Receivers come and go, signals are given and taken, and at some point the coordinator may go.
Whatever the order, a receiver gets the signals that were given while it was there, and all that it
has not taken by then count, of which the newest is kept.  What is done at other receivers makes no
difference to it.
-/

namespace MockHttp

/-- How many signals an attempt takes: the one that it yields, or those that were missed. -/
def Received.taken : Received → Nat
  | signal => 1
  | lagged missed => missed
  | nothing | closed | gone => 0

namespace StopChannel

/-- Something that is done to a channel, or at one of its receivers. -/
inductive Act where
  | subscribe
  | trigger
  | receive (id : Nat)
  | dropReceiver (id : Nat)
  | dropCoordinator
  deriving DecidableEq

/-- Whether an act is done at a receiver other than this one. -/
def Act.atOther (id : Nat) : Act → Bool
  | receive other | dropReceiver other => other ≠ id
  | subscribe | trigger | dropCoordinator => false

/-- The channel behind an act.  What is asked of a coordinator that is gone is not done. -/
def apply (channel : StopChannel) : Act → StopChannel
  | .subscribe => if channel.coordinated then channel.subscribe else channel
  | .trigger => if channel.coordinated then channel.trigger else channel
  | .receive id => (channel.receive id).2
  | .dropReceiver id => channel.dropReceiver id
  | .dropCoordinator => channel.dropCoordinator

/-- The channel behind a number of acts. -/
def after (channel : StopChannel) (acts : List Act) : StopChannel :=
  acts.foldl apply channel

/-- What the attempts of a receiver yield, one after the other. -/
def observed (channel : StopChannel) (id : Nat) : List Act → List Received
  | [] => []
  | act :: acts =>
      (if act = .receive id then [(channel.receive id).1] else []) ++
        (channel.apply act).observed id acts

/-! ## One act -/

/-- What an act makes of the number of signals that a receiver has not taken yet. -/
def Act.effect (coordinated : Bool) (next id : Nat) : Act → Option Nat → Option Nat
  | subscribe, unread => if coordinated ∧ id = next then some 0 else unread
  | trigger, unread => if coordinated then unread.map (· + 1) else unread
  | receive other, unread => if other = id then unread.map remaining else unread
  | dropReceiver other, unread => if other = id then none else unread
  | dropCoordinator, unread => unread

section

variable {channel : StopChannel}

theorem coordinated_apply (channel : StopChannel) (act : Act) :
    (channel.apply act).coordinated = (channel.coordinated && act ≠ .dropCoordinator) := by
  cases act with
  | subscribe =>
      rw [apply]
      split <;> simp [subscribe]
  | trigger =>
      rw [apply]
      split <;> simp [coordinated_trigger]
  | receive id => simp [apply, coordinated_receive]
  | dropReceiver id => simp [apply, dropReceiver]
  | dropCoordinator => simp [apply, dropCoordinator]

theorem length_apply (channel : StopChannel) (act : Act) :
    (channel.apply act).positions.length =
      channel.positions.length + if channel.coordinated ∧ act = .subscribe then 1 else 0 := by
  cases act with
  | subscribe =>
      rw [apply]
      split <;> simp_all [subscribe]
  | trigger =>
      rw [apply, trigger]
      split_ifs <;> simp_all
  | receive id =>
      rw [apply, receive]
      split <;> simp
  | dropReceiver id => simp [apply, dropReceiver]
  | dropCoordinator => simp [apply, dropCoordinator]

theorem Bounded.apply (hbounded : channel.Bounded) (act : Act) : (channel.apply act).Bounded := by
  cases act with
  | subscribe =>
      rw [StopChannel.apply]
      split
      · exact hbounded.subscribe
      · exact hbounded
  | trigger =>
      rw [StopChannel.apply]
      split
      · exact hbounded.trigger
      · exact hbounded
  | receive id => exact hbounded.receive id
  | dropReceiver id => exact hbounded.dropReceiver id
  | dropCoordinator => exact hbounded

theorem unread?_apply (hbounded : channel.Bounded) (act : Act) (id : Nat) :
    (channel.apply act).unread? id =
      act.effect channel.coordinated channel.positions.length id (channel.unread? id) := by
  cases act with
  | subscribe =>
      rw [apply, Act.effect]
      by_cases hcoordinated : channel.coordinated
      · simp [hcoordinated, unread?_subscribe]
      · simp [hcoordinated]
  | trigger =>
      rw [apply, Act.effect]
      split
      · exact unread?_trigger hbounded id
      · rfl
  | receive other =>
      rw [apply, Act.effect]
      split
      · rename_i hid
        rw [hid, unread?_receive_self hbounded]
      · rename_i hne
        exact unread?_receive_of_ne hne channel
  | dropReceiver other => exact unread?_dropReceiver channel id other
  | dropCoordinator => rfl

end

/-! ## Histories -/

/-- The receiver was added with these acts coming behind, and has not been dropped in them. -/
def Listens (acts : List Act) (id : Nat) (since : List Act) : Prop :=
  ∃ before, acts = before ++ .subscribe :: since ∧ .dropCoordinator ∉ before ∧
    before.count .subscribe = id ∧ .dropReceiver id ∉ since

/-- How many signals are given in a number of acts. -/
def told (acts : List Act) : Nat :=
  (acts.takeWhile (· ≠ .dropCoordinator)).count .trigger

/-- How many signals a receiver has taken. -/
def taken (id : Nat) (acts : List Act) : Nat :=
  ((new.observed id acts).map Received.taken).sum

/-- A wait at a receiver is over: some attempt has yielded something, whatever it was. -/
def WaitOver (id : Nat) (acts : List Act) : Prop :=
  ∃ received ∈ new.observed id acts, received ≠ .nothing ∧ received ≠ .gone

variable {acts since : List Act} {act : Act} {id : Nat}

theorem after_concat (channel : StopChannel) (acts : List Act) (act : Act) :
    channel.after (acts ++ [act]) = (channel.after acts).apply act := by
  rw [after, List.foldl_concat, after]

theorem observed_concat (channel : StopChannel) (id : Nat) (acts : List Act) (act : Act) :
    channel.observed id (acts ++ [act]) =
      channel.observed id acts ++
        if act = .receive id then [((channel.after acts).receive id).1] else [] := by
  induction acts generalizing channel with
  | nil => simp [observed, after]
  | cons first acts ih =>
      rw [List.cons_append, observed, ih, observed, List.append_assoc]
      rfl

theorem taken_concat_of_ne (hne : act ≠ .receive id) :
    taken id (acts ++ [act]) = taken id acts := by
  rw [taken, observed_concat, if_neg hne, List.append_nil, taken]

theorem taken_concat_receive (id : Nat) (acts : List Act) :
    taken id (acts ++ [.receive id]) =
      taken id acts + ((new.after acts).receive id).1.taken := by
  rw [taken, observed_concat, if_pos rfl, List.map_append, List.sum_append, taken]
  simp

theorem waitOver_concat_iff :
    WaitOver id (acts ++ [act]) ↔
      WaitOver id acts ∨ act = .receive id ∧ ((new.after acts).receive id).1 ≠ .nothing ∧
        ((new.after acts).receive id).1 ≠ .gone := by
  by_cases hact : act = .receive id
  · simp [WaitOver, observed_concat, hact, or_and_right, exists_or]
  · simp [WaitOver, observed_concat, hact]

theorem taken_eq_zero_of_not_waitOver (hwaits : ¬ WaitOver id acts) : taken id acts = 0 := by
  rw [taken, List.sum_eq_zero_iff_forall_eq_nat]
  intro amount hamount
  obtain ⟨received, hreceived, rfl⟩ := List.mem_map.1 hamount
  by_contra hsome
  refine hwaits ⟨received, hreceived, ?_, ?_⟩
  · rintro rfl
    exact hsome rfl
  · rintro rfl
    exact hsome rfl

theorem told_cons (first : Act) (acts : List Act) :
    told (first :: acts) =
      if first = .dropCoordinator then 0 else told acts + if first = .trigger then 1 else 0 := by
  rw [told, told]
  by_cases hfirst : first = .dropCoordinator
  · simp [hfirst]
  · simp [hfirst, List.count_cons]

theorem told_concat (acts : List Act) (act : Act) :
    told (acts ++ [act]) =
      told acts + if act = .trigger ∧ .dropCoordinator ∉ acts then 1 else 0 := by
  induction acts with
  | nil => cases act <;> rfl
  | cons first acts ih =>
      rw [List.cons_append, told_cons, told_cons, ih]
      by_cases hfirst : first = .dropCoordinator
      · simp [hfirst]
      · simp [hfirst, Ne.symm hfirst, Nat.add_right_comm]

theorem listens_concat_iff :
    Listens (acts ++ [act]) id since ↔
      (∃ earlier, since = earlier ++ [act] ∧ Listens acts id earlier ∧ act ≠ .dropReceiver id) ∨
        (since = [] ∧ act = .subscribe ∧ .dropCoordinator ∉ acts ∧ acts.count .subscribe = id) := by
  constructor
  · rintro ⟨before, hacts, hcoordinator, hid, hkept⟩
    rcases List.eq_nil_or_concat' since with rfl | ⟨earlier, last, rfl⟩
    · obtain ⟨rfl, hact⟩ := List.append_inj' hacts rfl
      exact .inr ⟨rfl, List.head_eq_of_cons_eq hact, hcoordinator, hid⟩
    · have hlast : acts ++ [act] = (before ++ .subscribe :: earlier) ++ [last] := by
        rw [hacts, List.append_assoc, List.cons_append]
      obtain ⟨hfront, hact⟩ := List.append_inj' hlast rfl
      obtain rfl := List.head_eq_of_cons_eq hact
      rw [List.mem_append, List.mem_singleton, not_or] at hkept
      exact .inl ⟨earlier, rfl, ⟨before, hfront, hcoordinator, hid, hkept.1⟩, Ne.symm hkept.2⟩
  · rintro (⟨earlier, rfl, ⟨before, rfl, hcoordinator, hid, hkept⟩, hact⟩ |
      ⟨rfl, rfl, hcoordinator, hid⟩)
    · exact ⟨before, by simp, hcoordinator, hid, by simp [hkept, Ne.symm hact]⟩
    · exact ⟨acts, rfl, hcoordinator, hid, List.not_mem_nil⟩

theorem Listens.dropCoordinator_mem_iff (hlistens : Listens acts id since) :
    .dropCoordinator ∈ acts ↔ .dropCoordinator ∈ since := by
  obtain ⟨before, rfl, hcoordinator, -⟩ := hlistens
  simp [hcoordinator]

/-! ## What a history leads to -/

/-- The channel behind a history.  A receiver that is there was added in it and has what it was
told and has not taken; one that is not there yet has got nothing. -/
structure Recorded (acts : List Act) : Prop where
  bounded : (new.after acts).Bounded
  coordinated : (new.after acts).coordinated = true ↔ .dropCoordinator ∉ acts
  length : .dropCoordinator ∉ acts → (new.after acts).positions.length = acts.count .subscribe
  fresh : ∀ id, (new.after acts).positions.length ≤ id → ¬ WaitOver id acts
  listens : ∀ id unread, (new.after acts).unread? id = some unread → ∃ since, Listens acts id since
  unread : ∀ id since, Listens acts id since →
    ∃ unread, (new.after acts).unread? id = some unread ∧ told since = taken id acts + unread

theorem recorded_nil : Recorded [] where
  bounded := bounded_new
  coordinated := by simp [after, new]
  length _ := rfl
  fresh _ _ hover := by
    obtain ⟨received, hreceived, -⟩ := hover
    cases hreceived
  listens _ _ hunread := by cases hunread
  unread id since hlistens := by
    obtain ⟨before, hacts, -⟩ := hlistens
    simp at hacts

/-- What an attempt takes and what it leaves are what there was. -/
theorem taken_outcome_add_remaining (coordinated : Bool) (unread : Nat) :
    (outcome coordinated (some unread)).taken + remaining unread = unread := by
  match unread with
  | 0 => cases coordinated <;> rfl
  | 1 => rfl
  | missed + 2 =>
      rw [remaining, capacity, if_neg (by omega)]
      rfl

theorem Act.unread_of_effect {coordinated : Bool} {next unread : Nat} {before : Option Nat}
    (heffect : act.effect coordinated next id before = some unread) :
    (act ≠ .dropReceiver id ∧ ∃ earlier, before = some earlier) ∨
      (act = .subscribe ∧ coordinated = true ∧ id = next) := by
  cases act with
  | subscribe =>
      rw [effect] at heffect
      split at heffect
      · rename_i hadded
        exact .inr ⟨rfl, hadded⟩
      · exact .inl ⟨by simp, unread, heffect⟩
  | trigger =>
      rw [effect] at heffect
      split at heffect
      · obtain ⟨earlier, hearlier, -⟩ := Option.map_eq_some_iff.1 heffect
        exact .inl ⟨by simp, earlier, hearlier⟩
      · exact .inl ⟨by simp, unread, heffect⟩
  | receive other =>
      rw [effect] at heffect
      split at heffect
      · obtain ⟨earlier, hearlier, -⟩ := Option.map_eq_some_iff.1 heffect
        exact .inl ⟨by simp, earlier, hearlier⟩
      · exact .inl ⟨by simp, unread, heffect⟩
  | dropReceiver other =>
      rw [effect] at heffect
      split at heffect
      · cases heffect
      · rename_i hother
        exact .inl ⟨by simpa using hother, unread, heffect⟩
  | dropCoordinator => exact .inl ⟨by simp, unread, heffect⟩

theorem Recorded.unread_concat (hrecorded : Recorded acts) (hlistens : Listens acts id since)
    (hkept : act ≠ .dropReceiver id) :
    ∃ unread, (new.after (acts ++ [act])).unread? id = some unread ∧
      told (since ++ [act]) = taken id (acts ++ [act]) + unread := by
  obtain ⟨unread, hunread, htold⟩ := hrecorded.unread id since hlistens
  rw [after_concat, unread?_apply hrecorded.bounded, hunread, told_concat, htold]
  cases act with
  | subscribe =>
      have hold : ¬ ((new.after acts).coordinated = true ∧
          id = (new.after acts).positions.length) := by
        rintro ⟨-, hid⟩
        rw [unread?_eq_none_of_le hid.ge] at hunread
        cases hunread
      rw [taken_concat_of_ne (by simp)]
      exact ⟨unread, if_neg hold, by simp⟩
  | trigger =>
      have hthere : (new.after acts).coordinated = true ↔ .dropCoordinator ∉ since := by
        rw [hrecorded.coordinated, hlistens.dropCoordinator_mem_iff]
      rw [taken_concat_of_ne (by simp), Act.effect]
      by_cases hcoordinated : (new.after acts).coordinated = true
      · rw [if_pos hcoordinated, if_pos ⟨rfl, hthere.1 hcoordinated⟩]
        exact ⟨unread + 1, rfl, Nat.add_assoc _ _ _⟩
      · rw [if_neg hcoordinated, if_neg fun h => hcoordinated (hthere.2 h.2)]
        exact ⟨unread, rfl, rfl⟩
  | receive other =>
      rw [Act.effect]
      by_cases hother : other = id
      · have hsplit := taken_outcome_add_remaining (new.after acts).coordinated unread
        rw [hother, taken_concat_receive, fst_receive, hunread, if_pos rfl]
        exact ⟨remaining unread, rfl, by simp; omega⟩
      · rw [taken_concat_of_ne (by simpa using hother), if_neg hother]
        exact ⟨unread, rfl, by simp⟩
  | dropReceiver other =>
      have hother : other ≠ id := by simpa using hkept
      rw [taken_concat_of_ne (by simp)]
      exact ⟨unread, if_neg hother, by simp⟩
  | dropCoordinator =>
      rw [taken_concat_of_ne (by simp)]
      exact ⟨unread, rfl, by simp⟩

theorem Recorded.concat (hrecorded : Recorded acts) (act : Act) : Recorded (acts ++ [act]) where
  bounded := by
    rw [after_concat]
    exact hrecorded.bounded.apply act
  coordinated := by
    rw [after_concat, coordinated_apply, Bool.and_eq_true, hrecorded.coordinated, List.mem_append,
      List.mem_singleton, not_or, decide_eq_true_iff, ne_comm]
  length hcoordinator := by
    rw [List.mem_append, List.mem_singleton, not_or] at hcoordinator
    rw [after_concat, length_apply, hrecorded.length hcoordinator.1,
      hrecorded.coordinated.2 hcoordinator.1, List.count_append, List.count_singleton]
    simp
  fresh id hle := by
    rw [after_concat, length_apply] at hle
    have hfresh : (new.after acts).positions.length ≤ id := Nat.le_of_add_right_le hle
    rw [waitOver_concat_iff]
    rintro (hover | ⟨-, -, hthere⟩)
    · exact hrecorded.fresh id hfresh hover
    · exact hthere (by rw [receive_of_unread?_eq_none (unread?_eq_none_of_le hfresh)])
  listens id unread hunread := by
    rw [after_concat, unread?_apply hrecorded.bounded] at hunread
    rcases Act.unread_of_effect hunread with ⟨hkept, earlier, hearlier⟩ | ⟨rfl, hadded, hid⟩
    · obtain ⟨since, hsince⟩ := hrecorded.listens id earlier hearlier
      exact ⟨since ++ [act], listens_concat_iff.2 (.inl ⟨since, rfl, hsince, hkept⟩)⟩
    · have hcoordinator := hrecorded.coordinated.1 hadded
      rw [hrecorded.length hcoordinator] at hid
      exact ⟨[], listens_concat_iff.2 (.inr ⟨rfl, rfl, hcoordinator, hid.symm⟩)⟩
  unread id since hlistens := by
    rcases listens_concat_iff.1 hlistens with
      ⟨earlier, rfl, hearlier, hkept⟩ | ⟨rfl, rfl, hcoordinator, hid⟩
    · exact hrecorded.unread_concat hearlier hkept
    · have hnext := (hrecorded.length hcoordinator).trans hid
      refine ⟨0, ?_, ?_⟩
      · rw [after_concat, unread?_apply hrecorded.bounded]
        exact if_pos ⟨hrecorded.coordinated.2 hcoordinator, hnext.symm⟩
      · have hnothing := taken_eq_zero_of_not_waitOver (hrecorded.fresh id hnext.le)
        rw [taken_concat_of_ne (by simp), hnothing]
        rfl

theorem recorded (acts : List Act) : Recorded acts := by
  induction acts using List.reverseRecOn with
  | nil => exact recorded_nil
  | append_singleton acts act ih => exact ih.concat act

/-! ## Waiting -/

theorem told_of_notMem (hcoordinator : .dropCoordinator ∉ acts) :
    told acts = acts.count .trigger := by
  rw [told, List.takeWhile_eq_self_iff.2]
  intro act hact
  simpa using ne_of_mem_of_not_mem hact hcoordinator

/-- Nothing ends a wait as long as there is neither a signal nor an end of the coordinator. -/
theorem not_waitOver_of_quiet (hlistens : Listens acts id since) (htrigger : .trigger ∉ since)
    (hcoordinator : .dropCoordinator ∉ since) : ¬ WaitOver id acts := by
  -- Before the receiver was added nothing could come, and since then nothing did.
  induction acts using List.reverseRecOn generalizing since with
  | nil =>
      rintro ⟨received, hreceived, -⟩
      cases hreceived
  | append_singleton acts act ih =>
      have hrecorded := recorded acts
      rw [waitOver_concat_iff]
      rcases listens_concat_iff.1 hlistens with
        ⟨earlier, rfl, hearlier, -⟩ | ⟨-, rfl, hthere, hid⟩
      · rw [List.mem_append, not_or] at htrigger hcoordinator
        rintro (hover | ⟨-, hsome, -⟩)
        · exact ih hearlier htrigger.1 hcoordinator.1 hover
        · obtain ⟨unread, hunread, htold⟩ := hrecorded.unread id earlier hearlier
          rw [told_of_notMem hcoordinator.1, List.count_eq_zero.2 htrigger.1] at htold
          rw [fst_receive, hunread, ne_eq, outcome_some_eq_nothing_iff, hrecorded.coordinated,
            hearlier.dropCoordinator_mem_iff] at hsome
          exact hsome ⟨hcoordinator.1, by omega⟩
      · rintro (hover | ⟨hact, -⟩)
        · exact hrecorded.fresh id ((hrecorded.length hthere).trans hid).le hover
        · cases hact

/-- A wait is over with the next attempt exactly if there was a signal since the receiver was added,
or the coordinator went. -/
theorem waitOver_iff (hlistens : Listens acts id since) :
    WaitOver id (acts ++ [.receive id]) ↔ .trigger ∈ since ∨ .dropCoordinator ∈ since := by
  constructor
  · intro hover
    have hnext : Listens (acts ++ [.receive id]) id (since ++ [.receive id]) :=
      listens_concat_iff.2 (.inl ⟨since, rfl, hlistens, by simp⟩)
    by_contra hquiet
    rw [not_or] at hquiet
    exact not_waitOver_of_quiet hnext (by simp [hquiet.1]) (by simp [hquiet.2]) hover
  · intro hcame
    rw [waitOver_concat_iff, or_iff_not_imp_left]
    intro hwaits
    obtain ⟨unread, hunread, htold⟩ := (recorded acts).unread id since hlistens
    rw [taken_eq_zero_of_not_waitOver hwaits, Nat.zero_add] at htold
    rw [fst_receive, hunread]
    refine ⟨rfl, fun hnothing => ?_, outcome_some_ne_gone _ _⟩
    obtain ⟨hthere, rfl⟩ := outcome_some_eq_nothing_iff.1 hnothing
    rw [(recorded acts).coordinated, hlistens.dropCoordinator_mem_iff] at hthere
    rw [told_of_notMem hthere, List.count_eq_zero] at htold
    exact hcame.elim htold hthere

/-! ## Other receivers -/

/-- Two channels that a receiver cannot tell apart. -/
structure Alike (id : Nat) (channel other : StopChannel) : Prop where
  coordinated : channel.coordinated = other.coordinated
  length : channel.positions.length = other.positions.length
  unread : channel.unread? id = other.unread? id

section

variable {channel other : StopChannel}

theorem Alike.apply (halike : Alike id channel other) (hbounded : channel.Bounded)
    (hother : other.Bounded) (act : Act) : Alike id (channel.apply act) (other.apply act) where
  coordinated := by rw [coordinated_apply, coordinated_apply, halike.coordinated]
  length := by rw [length_apply, length_apply, halike.coordinated, halike.length]
  unread := by
    rw [unread?_apply hbounded, unread?_apply hother, halike.coordinated, halike.length,
      halike.unread]

theorem alike_apply_of_atOther (hbounded : channel.Bounded) (hact : act.atOther id = true) :
    Alike id channel (channel.apply act) where
  coordinated := by
    rw [coordinated_apply]
    cases act <;> simp_all [Act.atOther]
  length := by
    rw [length_apply]
    cases act <;> simp_all [Act.atOther]
  unread := by
    rw [unread?_apply hbounded]
    cases act <;> simp_all [Act.atOther, Act.effect]

theorem Alike.trans {third : StopChannel} (hfirst : Alike id channel other)
    (hsecond : Alike id other third) : Alike id channel third :=
  ⟨hfirst.coordinated.trans hsecond.coordinated, hfirst.length.trans hsecond.length,
    hfirst.unread.trans hsecond.unread⟩

/-- What a receiver observes is not changed by what is done at others. -/
theorem observed_filter (halike : Alike id other channel) (hother : other.Bounded)
    (hbounded : channel.Bounded) :
    other.observed id (acts.filter (!Act.atOther id ·)) = channel.observed id acts := by
  -- The channel that is left out of some acts falls behind, so the two are only alike.
  induction acts generalizing channel other with
  | nil => rfl
  | cons act acts ih =>
      rw [List.filter_cons]
      cases hact : act.atOther id with
      | false =>
          have hrest := ih (halike.apply hother hbounded act) (hother.apply act)
            (hbounded.apply act)
          rw [Bool.not_false, if_pos rfl, observed, observed, fst_receive, fst_receive,
            halike.coordinated, halike.unread, hrest]
      | true =>
          have hne : act ≠ .receive id := by
            rintro rfl
            simp [Act.atOther] at hact
          have hnext := halike.trans (alike_apply_of_atOther hbounded hact)
          rw [Bool.not_true, if_neg Bool.false_ne_true, observed, if_neg hne, List.nil_append]
          exact ih hnext hother (hbounded.apply act)

end

/-! ## All receivers -/

theorem Recorded.exists_receivers (hrecorded : Recorded acts) :
    ∃ ids : List Nat, ids.Nodup ∧ (∀ id, id ∈ ids ↔ ∃ since, Listens acts id since) ∧
      (new.after acts).receiverCount = ids.length := by
  refine ⟨_, List.nodup_range.filter _, fun id => ?_, receiverCount_eq (new.after acts)⟩
  rw [List.mem_filter, List.mem_range]
  constructor
  · rintro ⟨-, hsome⟩
    obtain ⟨unread, hunread⟩ := Option.isSome_iff_exists.1 hsome
    exact hrecorded.listens id unread hunread
  · rintro ⟨since, hlistens⟩
    obtain ⟨unread, hunread, -⟩ := hrecorded.unread id since hlistens
    refine ⟨?_, by rw [hunread]; rfl⟩
    by_contra hlength
    rw [unread?_eq_none_of_le (Nat.le_of_not_lt hlength)] at hunread
    cases hunread

/-- Whatever is done to a channel, those are counted as receivers that were added and not dropped.
An attempt of one of them yields nothing exactly if there is a coordinator and the receiver has
taken every signal since it was added; without a coordinator it is told then that the channel is
closed.  A single signal that it has not taken yet is yielded, and of several all but the newest are
told as missed and one is left.  So a wait is over with the next attempt exactly if there was a
signal since the receiver was added, or the coordinator went.  What is done at other receivers
changes nothing of what a receiver observes. -/
theorem receive_tells_later_signals (acts : List Act) :
    (∃ ids : List Nat, ids.Nodup ∧ (∀ id, id ∈ ids ↔ ∃ since, Listens acts id since) ∧
      (new.after acts).receiverCount = ids.length) ∧
    (∀ id since, Listens acts id since →
      let received := ((new.after acts).receive id).1
      let next := acts ++ [.receive id]
      ∃ unread, told since = taken id acts + unread ∧
        (received = .nothing ↔ .dropCoordinator ∉ acts ∧ unread = 0) ∧
        (unread = 0 → .dropCoordinator ∈ acts → received = .closed) ∧
        (unread = 1 → received = .signal ∧ told since = taken id next) ∧
        (2 ≤ unread → received = .lagged (unread - 1) ∧ told since = taken id next + 1) ∧
        (WaitOver id next ↔ .trigger ∈ since ∨ .dropCoordinator ∈ since)) ∧
    ∀ id, new.observed id (acts.filter (!Act.atOther id ·)) = new.observed id acts := by
  have hrecorded := recorded acts
  refine ⟨hrecorded.exists_receivers, fun id since hlistens => ?_, fun id => ?_⟩
  · obtain ⟨unread, hunread, htold⟩ := hrecorded.unread id since hlistens
    have hreceived : ((new.after acts).receive id).1 =
        outcome (new.after acts).coordinated (some unread) := by
      rw [fst_receive, hunread]
    dsimp only
    rw [taken_concat_receive, hreceived]
    refine ⟨unread, htold, ?_, ?_, ?_, ?_, waitOver_iff hlistens⟩
    · rw [outcome_some_eq_nothing_iff, hrecorded.coordinated]
    · rintro rfl hgone
      have hcoordinated : (new.after acts).coordinated = false := by
        rw [Bool.eq_false_iff, ne_eq, hrecorded.coordinated, not_not]
        exact hgone
      rw [hcoordinated]
      rfl
    · rintro rfl
      exact ⟨rfl, htold⟩
    · intro hseveral
      obtain ⟨missed, rfl⟩ := Nat.exists_eq_add_of_le' hseveral
      exact ⟨rfl, htold⟩
  · exact observed_filter ⟨rfl, rfl, rfl⟩ bounded_new bounded_new

/-- Two receivers, of which the second is added behind the first signal and has then missed one. -/
def twoReceivers : List Act :=
  [.subscribe, .trigger, .subscribe, .trigger, .trigger, .receive 1]

theorem receive_twoReceivers :
    ((new.after twoReceivers).receive 0).1 = .lagged 2 ∧
      ((new.after twoReceivers).receive 1).1 = .signal ∧
      WaitOver 1 (twoReceivers ++ [.receive 1]) ∧
      new.observed 1 (twoReceivers.filter (!Act.atOther 1 ·)) = [.lagged 1] := by
  obtain ⟨-, hreceive, hothers⟩ := receive_tells_later_signals twoReceivers
  have hfirst : Listens twoReceivers 0 [.trigger, .subscribe, .trigger, .trigger, .receive 1] :=
    ⟨[], rfl, by decide, rfl, by decide⟩
  have hsecond : Listens twoReceivers 1 [.trigger, .trigger, .receive 1] :=
    ⟨[.subscribe, .trigger], rfl, by decide, rfl, by decide⟩
  obtain ⟨unread, htold, -, -, -, hseveral, -⟩ := hreceive 0 _ hfirst
  obtain ⟨rest, htold', -, -, hsingle, -, hover⟩ := hreceive 1 _ hsecond
  have hthree : 3 = 0 + unread := htold
  have htwo : 2 = 1 + rest := htold'
  obtain rfl : unread = 3 := by omega
  obtain rfl : rest = 1 := by omega
  exact ⟨(hseveral (by decide)).1, (hsingle rfl).1, hover.2 (.inl (by decide)), hothers 1⟩

end StopChannel

end MockHttp
