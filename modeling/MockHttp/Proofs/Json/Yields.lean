import MockHttp.Json.Structure
/-!
# What readers yield

A property that all values of a reader have, whatever document it reads.  It is carried from the
readers of members and elements to those of objects and lists.
-/

namespace MockHttp.Json

theorem bind_eq_ok_iff {ε α β : Type} {first : Except ε α} {next : α → Except ε β} {value : β} :
    (first >>= next) = .ok value ↔ ∃ a, first = .ok a ∧ next a = .ok value := by
  constructor
  · intro hbind
    cases first with
    | error error => cases hbind
    | ok a => exact ⟨a, rfl, hbind⟩
  · rintro ⟨a, rfl, hnext⟩
    exact hnext

/-- Each value that a reader gives has a property. -/
def Yields {α : Type} (property : α → Prop) (read : Reader α) : Prop :=
  ∀ s value rest, read s = .ok (value, rest) → property value

namespace Yields

variable {α σ : Type} {property : α → Prop} {read : Reader α}

theorem of_refuse (wanted : String) : Yields property (refuse wanted) := by
  intro s value rest hread
  obtain ⟨_, -, hthrow⟩ := bind_eq_ok_iff.1 hread
  cases hthrow

theorem of_withFirst {read : UInt8 → Reader α}
    (hread : ∀ b s value rest, read b s = .ok (value, rest) → property value) :
    Yields property (withFirst read) := by
  intro s value rest hfirst
  unfold withFirst at hfirst
  split at hfirst
  · cases hfirst
  · exact hread _ _ value rest hfirst

theorem of_memberValue (hread : Yields property read) : Yields property (memberValue read) := by
  intro s value rest hmember
  obtain ⟨s', -, hvalue⟩ := bind_eq_ok_iff.1 hmember
  exact hread s' value rest hvalue

theorem of_element? (hread : Yields property read) (isFirst : Bool) :
    Yields (fun value => ∀ v ∈ value, property v) (element? read isFirst) := by
  intro s value rest helement
  obtain ⟨⟨_ | _, s'⟩, -, hnext⟩ := bind_eq_ok_iff.1 helement
  · cases hnext
    simp
  · obtain ⟨⟨own, s''⟩, hown, hreturn⟩ := bind_eq_ok_iff.1 hnext
    obtain ⟨rfl, -⟩ := Prod.mk.inj (Except.ok.inj hreturn)
    intro v hv
    obtain rfl := Option.some.inj hv
    exact hread s' own s'' hown

theorem of_list (hread : Yields property read) :
    Yields (fun values => ∀ v ∈ values, property v) (list read) := by
  have helements (count : Nat) (isFirst : Bool) :
      Yields (fun values => ∀ v ∈ values, property v) (elements read count isFirst) := by
    induction count generalizing isFirst with
    | zero =>
        intro s values rest hlist
        cases hlist
    | succ count ih =>
        intro s values rest hlist
        obtain ⟨⟨_ | own, s'⟩, hown, hnext⟩ := bind_eq_ok_iff.1 hlist
        · obtain ⟨s'', -, hreturn⟩ := bind_eq_ok_iff.1 hnext
          obtain ⟨rfl, -⟩ := Prod.mk.inj (Except.ok.inj hreturn)
          exact fun v hv => absurd hv List.not_mem_nil
        · obtain ⟨⟨others, s''⟩, hothers, hreturn⟩ := bind_eq_ok_iff.1 hnext
          obtain ⟨rfl, -⟩ := Prod.mk.inj (Except.ok.inj hreturn)
          exact List.forall_mem_cons.2 ⟨hread.of_element? isFirst s (some own) s' hown own rfl,
            ih false s' others s'' hothers⟩
  exact fun s => helements s.length true s

/-- A property of the start that each member keeps is one of the object. -/
theorem of_object {invariant : σ → Prop} {step : σ → String → Reader σ} {initial : σ}
    (hinitial : invariant initial)
    (hstep : ∀ state key, invariant state → Yields invariant (step state key)) :
    Yields invariant (object step initial) := by
  have hmembers (count : Nat) (isFirst : Bool) (state : σ) (hstate : invariant state) :
      Yields invariant (members step count isFirst state) := by
    induction count generalizing isFirst state with
    | zero =>
        intro s value rest hread
        cases hread
    | succ count ih =>
        intro s value rest hread
        obtain ⟨⟨_ | key, s'⟩, -, hnext⟩ := bind_eq_ok_iff.1 hread
        · cases hnext
          exact hstate
        · obtain ⟨⟨next, s''⟩, hnext, hlater⟩ := bind_eq_ok_iff.1 hnext
          exact ih false next (hstep state key hstate s' next s'' hnext) s'' value rest hlater
  exact fun s => hmembers s.length true initial hinitial s

end Yields

theorem property_of_whole {α : Type} {property : α → Prop} {read : Reader α}
    (hread : Yields property read) {document : Bytes} {value : α}
    (hwhole : whole read document = .ok value) : property value := by
  unfold whole at hwhole
  split at hwhole
  · cases hwhole
  · rename_i own s hown
    split at hwhole
    · cases hwhole
    · obtain rfl := Except.ok.inj hwhole
      exact hread document own s hown

end MockHttp.Json
