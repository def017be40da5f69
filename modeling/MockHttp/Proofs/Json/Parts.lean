import MockHttp.Proofs.Json.Rows
/-!
# The parts of a value

Lists and objects are values, and what they are written as says which elements and members they
have: a text is a list or an object in one way only.  So a field of a record is a matter of the text
alone, and is a stretch of it.
-/

namespace MockHttp.Json

/-! ## Lists and objects are values -/

/-- A part is a value with what may stand in front of it in the bracket. -/
def Leads {α : Type} (Part : α → Bytes → Prop) (bracket : Bracket) (value : α → Bytes) : Prop :=
  ∀ a part, Part a part →
    ∃ lead, Lead bracket lead ∧ IsValue (value a) ∧ part = lead ++ value a

theorem leads_element : Leads Element .list id := by
  rintro _ _ ⟨hblank, hvalue⟩
  exact ⟨_, .list hblank, hvalue, rfl⟩

theorem leads_member : Leads Member .object Prod.snd := by
  rintro _ _ ⟨hbefore, hkey, hbehind, hgap, hvalue⟩
  exact ⟨_, .object hbefore hkey.content hbehind hgap, hvalue, by simp⟩

section

variable {α : Type} {Part : α → Bytes → Prop} {value : α → Bytes} {bracket : Bracket}
  {parts : List α} {row : Bytes} (hpart : Leads Part bracket value)
include hpart

theorem isRest_row (hrow : Row Part bracket false parts row) : IsRest bracket row := by
  generalize hfirst : false = isFirst at hrow
  induction hrow with
  | close hblank => exact .close bracket hblank
  | part hseparator hown _ ih =>
      subst hfirst
      obtain ⟨lead, hlead, hvalue, rfl⟩ := hpart _ _ hown
      cases hseparator with
      | comma hblank => simpa using IsRest.comma bracket hblank hlead hvalue (ih rfl)

theorem isValue_row (hrow : Row Part bracket true parts row) :
    IsValue (bracket.opening :: row) := by
  cases hrow with
  | close hblank => exact .hollow bracket hblank
  | part hseparator hown hrest =>
      obtain ⟨lead, hlead, hvalue, rfl⟩ := hpart _ _ hown
      cases hseparator with
      | first => simpa using IsValue.filled bracket hlead hvalue (isRest_row hpart hrest)

/-- A part's value stands in the row in one piece. -/
theorem isInfix_row {isFirst : Bool} (hrow : Row Part bracket isFirst parts row) {a : α}
    (ha : a ∈ parts) : IsValue (value a) ∧ value a <:+: row := by
  induction hrow with
  | close _ => cases ha
  | @part _ b others separator part rest _ hown _ ih =>
      rcases List.mem_cons.1 ha with rfl | ha
      · obtain ⟨lead, -, hvalue, rfl⟩ := hpart _ _ hown
        exact ⟨hvalue, separator ++ lead, rest, by simp⟩
      · obtain ⟨hvalue, hinfix⟩ := ih ha
        refine ⟨hvalue, hinfix.trans ?_⟩
        exact ⟨separator ++ part, [], by simp⟩

end

theorem IsList.isValue {elements : List Bytes} {s : Bytes} (hlist : IsList elements s) :
    IsValue s := by
  obtain ⟨hrow⟩ := hlist
  exact isValue_row leads_element hrow

theorem IsObject.isValue {members : List (String × Bytes)} {s : Bytes}
    (hobject : IsObject members s) : IsValue s := by
  obtain ⟨hrow⟩ := hobject
  exact isValue_row leads_member hrow

theorem IsObject.isValue_of_mem {members : List (String × Bytes)} {s : Bytes}
    (hobject : IsObject members s) : ∀ member ∈ members, IsValue member.2 := by
  obtain ⟨hrow⟩ := hobject
  exact fun member hmember => (isInfix_row leads_member hrow hmember).1

/-! ## Every text in one way only -/

/-- Reads a value for its text. -/
def slice : Reader Bytes := fun s => do
  let s := skipBlank s
  let rest ← skip s
  return (s.take (s.length - rest.length), rest)

theorem accepts_slice {value : Bytes} (hvalue : IsValue value) : Accepts slice value value := by
  intro blank rest hblank hrest
  have hskip : skip (value ++ rest) = .ok rest := skip_append blank_nil hvalue hrest
  unfold slice
  simp only [skipBlank_append hblank, hvalue.skipBlank_append]
  refine bind_eq_ok_iff.2 ⟨rest, hskip, ?_⟩
  rw [take_sub_length_append]
  rfl

/-- Reads one more member for its name and its text. -/
def sliceMember (members : List (String × Bytes)) (name : String) :
    Reader (List (String × Bytes)) := fun s => do
  let (value, s) ← memberValue slice s
  return (members ++ [(name, value)], s)

theorem accepts_sliceMember (members : List (String × Bytes)) {member : String × Bytes}
    (hvalue : IsValue member.2) :
    AcceptsMember sliceMember members member (members ++ [member]) :=
  acceptsMember_of_keeps (fun value => members ++ [(member.1, value)]) (fun _ => rfl)
    (accepts_slice hvalue)

theorem walk_sliceMember {members : List (String × Bytes)}
    (hvalues : ∀ member ∈ members, IsValue member.2) (before : List (String × Bytes)) :
    Walk (AcceptsMember sliceMember) before members (before ++ members) := by
  induction members generalizing before with
  | nil => rw [List.append_nil]; exact .nil
  | cons member members ih =>
      have hrest := ih (fun other hother => hvalues other (.tail _ hother)) (before ++ [member])
      rw [List.append_assoc] at hrest
      exact .cons (accepts_sliceMember before (hvalues member List.mem_cons_self)) hrest

theorem IsObject.unique {members others : List (String × Bytes)} {s : Bytes}
    (hmembers : IsObject members s) (hothers : IsObject others s) : members = others := by
  have hread {written : List (String × Bytes)} {row : Bytes}
      (hrow : Row Member .object true written row) :
      object sliceMember [] row = .ok (written, []) := by
    have hvalues := (IsObject.mk hrow).isValue_of_mem
    have h := accepts_object hrow (walk_sliceMember hvalues []) []
    rwa [List.append_nil] at h
  obtain ⟨hrow⟩ := hmembers
  obtain ⟨hrow'⟩ := hothers
  exact (Prod.mk.inj (Except.ok.inj ((hread hrow).symm.trans (hread hrow')))).1

theorem IsList.unique {elements others : List Bytes} {s : Bytes} (helements : IsList elements s)
    (hothers : IsList others s) : elements = others := by
  have hread {written : List Bytes} {row : Bytes} (hrow : Row Element .list true written row) :
      list slice row = .ok (written, []) := by
    have hvalues : List.Forall₂ (Accepts slice) written written :=
      List.forall₂_same.2 fun element helement =>
        accepts_slice (isInfix_row leads_element hrow helement).1
    have h := accepts_list hrow hvalues []
    rwa [List.append_nil] at h
  obtain ⟨hrow⟩ := helements
  obtain ⟨hrow'⟩ := hothers
  exact (Prod.mk.inj (Except.ok.inj ((hread hrow).symm.trans (hread hrow')))).1

theorem IsString.unique {text other : String} {s : Bytes} (htext : IsString text s)
    (hother : IsString other s) : text = other := by
  have hread {written : String} (hwritten : IsString written s) :
      Json.text s = .ok (written, []) := by
    have h := accepts_text hwritten [] [] blank_nil (by simp [Stops])
    rwa [List.append_nil] at h
  exact (Prod.mk.inj (Except.ok.inj ((hread htext).symm.trans (hread hother)))).1

theorem IsObject.not_isList {members : List (String × Bytes)} {s : Bytes} {elements : List Bytes}
    (hobject : IsObject members s) : ¬ IsList elements s := by
  rintro ⟨-⟩
  cases hobject

/-! ## Fields -/

/-- The value of the last member of an object with a name. -/
def MemberOf (object : Bytes) (name : String) (value : Bytes) : Prop :=
  ∃ members, IsObject members object ∧ (valuesOf name members).getLast? = some value

/-- The element of a list at an index. -/
def ElementOf (list : Bytes) (index : Nat) (value : Bytes) : Prop :=
  ∃ elements, IsList elements list ∧ elements[index]? = some value

/-- A field of a record: by its name where the record is written as an object, and by its place
where it is written as a list. -/
def FieldOf (record : Bytes) (name : String) (place : Nat) (value : Bytes) : Prop :=
  MemberOf record name value ∨ ElementOf record place value

theorem MemberOf.unique {object value other : Bytes} {name : String}
    (hvalue : MemberOf object name value) (hother : MemberOf object name other) :
    value = other := by
  obtain ⟨members, hmembers, hlast⟩ := hvalue
  obtain ⟨members', hmembers', hlast'⟩ := hother
  rw [hmembers.unique hmembers', hlast'] at hlast
  exact (Option.some.inj hlast).symm

theorem ElementOf.unique {list value other : Bytes} {index : Nat}
    (hvalue : ElementOf list index value) (hother : ElementOf list index other) :
    value = other := by
  obtain ⟨elements, helements, hget⟩ := hvalue
  obtain ⟨elements', helements', hget'⟩ := hother
  rw [helements.unique helements', hget'] at hget
  exact (Option.some.inj hget).symm

theorem FieldOf.unique {record value other : Bytes} {name : String} {place : Nat}
    (hvalue : FieldOf record name place value) (hother : FieldOf record name place other) :
    value = other := by
  rcases hvalue with hvalue | hvalue <;> rcases hother with hother | hother
  · exact hvalue.unique hother
  · exact absurd hother.choose_spec.1 hvalue.choose_spec.1.not_isList
  · exact absurd hvalue.choose_spec.1 hother.choose_spec.1.not_isList
  · exact hvalue.unique hother

theorem mem_of_getLast?_valuesOf {name : String} {members : List (String × Bytes)} {value : Bytes}
    (hlast : (valuesOf name members).getLast? = some value) : (name, value) ∈ members := by
  obtain ⟨⟨own, v⟩, hmember, rfl⟩ := List.mem_map.1 (List.mem_of_getLast? hlast)
  obtain ⟨hmember, hname⟩ := List.mem_filter.1 hmember
  rwa [show name = own from (of_decide_eq_true hname).symm]

/-- A member's value stands in the object in one piece. -/
theorem MemberOf.isInfix {object value : Bytes} {name : String}
    (hvalue : MemberOf object name value) : IsValue value ∧ value <:+: object := by
  obtain ⟨members, ⟨hrow⟩, hlast⟩ := hvalue
  obtain ⟨hown, hinfix⟩ :=
    isInfix_row leads_member hrow (mem_of_getLast?_valuesOf hlast)
  exact ⟨hown, hinfix.trans (List.suffix_cons _ _).isInfix⟩

/-- An element stands in the list in one piece. -/
theorem ElementOf.isInfix {list value : Bytes} {index : Nat}
    (hvalue : ElementOf list index value) : IsValue value ∧ value <:+: list := by
  obtain ⟨elements, ⟨hrow⟩, hget⟩ := hvalue
  obtain ⟨hown, hinfix⟩ :=
    isInfix_row leads_element hrow (List.mem_of_getElem? hget)
  exact ⟨hown, hinfix.trans (List.suffix_cons _ _).isInfix⟩

theorem FieldOf.isInfix {record value : Bytes} {name : String} {place : Nat}
    (hvalue : FieldOf record name place value) : IsValue value ∧ value <:+: record := by
  rcases hvalue with hvalue | hvalue
  · exact hvalue.isInfix
  · exact hvalue.isInfix

theorem fieldOf_object {members : List (String × Bytes)} {record : Bytes}
    (hobject : IsObject members record) {name : String} {place : Nat} {value : Bytes} :
    FieldOf record name place value ↔ (valuesOf name members).getLast? = some value := by
  constructor
  · rintro (⟨members', hmembers', hlast⟩ | ⟨elements, hlist, -⟩)
    · rwa [hobject.unique hmembers']
    · exact absurd hlist hobject.not_isList
  · exact fun hlast => .inl ⟨members, hobject, hlast⟩

theorem fieldOf_list {elements : List Bytes} {record : Bytes} (hlist : IsList elements record)
    {name : String} {place : Nat} {value : Bytes} :
    FieldOf record name place value ↔ elements[place]? = some value := by
  constructor
  · rintro (⟨members, hobject, -⟩ | ⟨elements', helements', hget⟩)
    · exact absurd hlist hobject.not_isList
    · rwa [hlist.unique helements']
  · exact fun hget => .inr ⟨elements, hlist, hget⟩

/-! ## Walks that set a field once -/

@[simp] theorem valuesOf_nil (name : String) : valuesOf name [] = [] := rfl

theorem valuesOf_cons_self (name : String) (value : Bytes) (members : List (String × Bytes)) :
    valuesOf name ((name, value) :: members) = value :: valuesOf name members := by
  simp [valuesOf]

theorem valuesOf_cons_of_ne {name other : String} (hne : other ≠ name) (value : Bytes)
    (members : List (String × Bytes)) :
    valuesOf name ((other, value) :: members) = valuesOf name members := by
  simp [valuesOf, hne]

theorem valuesOf_append (name : String) (members others : List (String × Bytes)) :
    valuesOf name (members ++ others) = valuesOf name members ++ valuesOf name others := by
  simp [valuesOf]

/-- Only members with its name set the field, each from what its value means, and none of them
when it is set. -/
structure SetsOnce {σ β : Type} (Next : σ → String × Bytes → σ → Prop) (get : σ → Option β)
    (name : String) (Means : β → Bytes → Prop) : Prop where
  own {state next : σ} {value : Bytes} : Next state (name, value) next →
    get state = none ∧ ∃ b, get next = some b ∧ Means b value
  other {state next : σ} {n : String} {value : Bytes} : n ≠ name → Next state (n, value) next →
    get next = get state

theorem SetsOnce.valuesOf_eq {σ β : Type} {Next : σ → String × Bytes → σ → Prop}
    {get : σ → Option β} {name : String} {Means : β → Bytes → Prop}
    (hsets : SetsOnce Next get name Means) {state final : σ} {members : List (String × Bytes)}
    (hwalk : Walk Next state members final) :
    (get final = get state ∧ valuesOf name members = []) ∨
      (get state = none ∧ ∃ b value, get final = some b ∧ Means b value ∧
        valuesOf name members = [value]) := by
  induction hwalk with
  | nil => exact .inl ⟨rfl, rfl⟩
  | @cons state next final member members hstep _ ih =>
      obtain ⟨n, value⟩ := member
      by_cases hname : n = name
      · subst hname
        obtain ⟨hnone, b, hnext, hmeans⟩ := hsets.own hstep
        rw [valuesOf_cons_self]
        rcases ih with ⟨hfinal, hvalues⟩ | ⟨hstate, -⟩
        · exact .inr ⟨hnone, b, value, hfinal.trans hnext, hmeans, by rw [hvalues]⟩
        · rw [hnext] at hstate
          cases hstate
      · rw [valuesOf_cons_of_ne hname, ← hsets.other hname hstep]
        exact ih

/-- A field that was set by a walk through an object is the field of the object. -/
theorem SetsOnce.exists_fieldOf {σ β : Type} {Next : σ → String × Bytes → σ → Prop}
    {get : σ → Option β} {name : String} {Means : β → Bytes → Prop}
    (hsets : SetsOnce Next get name Means) {state final : σ} {members : List (String × Bytes)}
    (hwalk : Walk Next state members final) (hnone : get state = none) {record : Bytes}
    (hobject : IsObject members record) (place : Nat) {b : β} (hb : get final = some b) :
    ∃ value, FieldOf record name place value ∧ Means b value := by
  rcases hsets.valuesOf_eq hwalk with ⟨hfinal, -⟩ | ⟨-, own, value, hget, hmeans, hvalues⟩
  · rw [hfinal, hnone] at hb
    cases hb
  · obtain rfl := Option.some.inj (hget.symm.trans hb)
    exact ⟨value, (fieldOf_object hobject).2 (by rw [hvalues]; rfl), hmeans⟩

/-- What is still to come for a field: nothing, or a value for one that is not set yet. -/
inductive Pending {β : Type} (Means : Bytes → β → Prop) : Option β → Option β → List Bytes → Prop
    where
  | settled {current : Option β} : Pending Means current current []
  | awaited {value : Bytes} {b : β} : Means value b → Pending Means none (some b) [value]

namespace Pending

variable {β : Type} {Means : Bytes → β → Prop} {current final : Option β} {name : String}
  {value : Bytes} {members : List (String × Bytes)}

theorem eq_of_nil (hpending : Pending Means current final []) : current = final := by
  cases hpending
  rfl

theorem of_own
    (hpending : Pending Means current final (valuesOf name ((name, value) :: members))) :
    ∃ b, current = none ∧ Means value b ∧ Pending Means (some b) final (valuesOf name members) := by
  rw [valuesOf_cons_self] at hpending
  generalize valuesOf name members = values at hpending ⊢
  cases hpending with
  | awaited hmeans => exact ⟨_, rfl, hmeans, .settled⟩

/-- A value that is still to come is accepted by a step that reads and keeps it where it is not set
yet, and then it is set. -/
theorem acceptsMember_of_own {σ : Type} {read : Reader β}
    (hpending : Pending (Accepts read) current final (valuesOf name ((name, value) :: members)))
    (step : σ → String → Reader σ) (state : σ) (keep : β → σ)
    (hstep : current = none → ∀ s, step state name s =
      memberValue read s >>= fun (b, s) => .ok (keep b, s)) :
    ∃ b, AcceptsMember step state (name, value) (keep b) ∧
      Pending (Accepts read) (some b) final (valuesOf name members) := by
  obtain ⟨b, hnone, hread, hrest⟩ := hpending.of_own
  exact ⟨b, acceptsMember_of_keeps keep (hstep hnone) hread, hrest⟩

theorem of_other {other : String}
    (hpending : Pending Means current final (valuesOf name ((other, value) :: members)))
    (hne : other ≠ name) : Pending Means current final (valuesOf name members) := by
  rwa [valuesOf_cons_of_ne hne] at hpending

end Pending

/-! ## The ends of a value -/

/-- The last byte of a text is there and is no blank. -/
def EndsVisibly (s : Bytes) : Prop :=
  ∃ b, s.getLast? = some b ∧ isBlank b = false

theorem EndsVisibly.append {t : Bytes} (ht : EndsVisibly t) (s : Bytes) : EndsVisibly (s ++ t) := by
  obtain ⟨b, hlast, hb⟩ := ht
  exact ⟨b, by rw [List.getLast?_append, hlast, Option.some_or], hb⟩

theorem EndsVisibly.cons {t : Bytes} (ht : EndsVisibly t) (b : UInt8) : EndsVisibly (b :: t) :=
  ht.append [b]

theorem endsVisibly_singleton {b : UInt8} (hb : isBlank b = false) : EndsVisibly [b] :=
  ⟨b, rfl, hb⟩

theorem Digits.endsVisibly {s : Bytes} (hs : Digits s) : EndsVisibly s := by
  obtain ⟨hne, hdigits⟩ := hs
  refine ⟨_, List.getLast?_eq_some_getLast hne, ?_⟩
  exact StartsScalar.isBlank (.inr (hdigits _ (List.getLast_mem hne)))

theorem Unsigned.endsVisibly {s : Bytes} (hs : Unsigned s) : EndsVisibly s := by
  obtain ⟨⟨hwhole, -⟩, hfraction, hexponent⟩ := hs
  cases hexponent with
  | present _ _ hdigits => exact (((hdigits.endsVisibly.append _).cons _).append _).append _
  | absent =>
      rw [List.append_nil]
      cases hfraction with
      | absent => rw [List.append_nil]; exact hwhole.endsVisibly
      | present hdigits => exact (hdigits.endsVisibly.cons _).append _

theorem IsScalar.endsVisibly {s : Bytes} (hs : IsScalar s) : EndsVisibly s := by
  cases hs with
  | null => exact ⟨ascii 'l', rfl, by decide⟩
  | true => exact ⟨ascii 'e', rfl, by decide⟩
  | false => exact ⟨ascii 'e', rfl, by decide⟩
  | unsigned hs => exact hs.endsVisibly
  | minus hs => exact hs.endsVisibly.cons _
  | string _ => exact ((endsVisibly_singleton (by decide)).append _).cons _

theorem IsRest.endsVisibly {bracket : Bracket} {s : Bytes} (hs : IsRest bracket s) :
    EndsVisibly s := by
  match hs with
  | .close _ _ => exact (endsVisibly_singleton (isBlank_closing bracket)).append _
  | .comma _ _ _ _ hrest => exact (((hrest.endsVisibly.append _).append _).cons _).append _

theorem IsValue.endsVisibly {s : Bytes} (hs : IsValue s) : EndsVisibly s := by
  cases hs with
  | scalar hs => exact hs.endsVisibly
  | hollow bracket _ => exact ((endsVisibly_singleton (isBlank_closing bracket)).append _).cons _
  | filled _ _ _ hrest => exact ((hrest.endsVisibly.append _).append _).cons _

/-- The first byte of a text is there and is no blank. -/
def StartsVisibly (s : Bytes) : Prop :=
  ∃ b, s.head? = some b ∧ isBlank b = false

theorem IsValue.startsVisibly {s : Bytes} (hs : IsValue s) : StartsVisibly s := by
  obtain ⟨b, t, rfl, hb, -⟩ := hs.head
  exact ⟨b, rfl, hb⟩

end MockHttp.Json
