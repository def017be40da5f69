import Mathlib.Data.List.Forall2
import Mathlib.Data.List.TakeWhile
import MockHttp.Proofs.Json.Passing
/-!
# Lists and objects that are read

What a reader takes a written value for, and what its values are written as, go from the readers of
elements and members over to those of lists and objects.  An object is read by walking from state
to state through its members.
-/

namespace MockHttp.Json

/-- The reader makes something of a written value, whatever blanks are in front of it and wherever
it ends. -/
def Accepts {α : Type} (read : Reader α) (value : Bytes) (a : α) : Prop :=
  ∀ blank rest, Blank blank → Stops rest → read (blank ++ (value ++ rest)) = .ok (a, rest)

/-- What the reader gives stands there as a value, and is what this value means. -/
def Takes {α : Type} (read : Reader α) (Means : α → Bytes → Prop) : Prop :=
  ∀ s a rest, read s = .ok (a, rest) →
    ∃ blank value, Blank blank ∧ IsValue value ∧ Means a value ∧ s = blank ++ (value ++ rest)

variable {α σ : Type}

/-! ## Values by their first byte -/

theorem not_ok_of_refuse {wanted : String} {s rest : Bytes} {a : α} :
    refuse wanted s ≠ .ok (a, rest) := by
  intro hrefuse
  obtain ⟨_, -, hthrow⟩ := bind_eq_ok_iff.1 hrefuse
  cases hthrow

theorem accepts_withFirst {read : UInt8 → Reader α} {b : UInt8} {t : Bytes} {a : α}
    (hb : isBlank b = false) (hread : ∀ rest, Stops rest → read b (t ++ rest) = .ok (a, rest)) :
    Accepts (withFirst read) (b :: t) a := by
  intro blank rest hblank hrest
  rw [withFirst, skipBlank_append hblank, List.cons_append, skipBlank_cons hb]
  exact hread rest hrest

theorem takes_withFirst {read : UInt8 → Reader α} {Means : α → Bytes → Prop}
    (hread : ∀ b s a rest, read b s = .ok (a, rest) →
      ∃ value, IsValue value ∧ Means a value ∧ b :: s = value ++ rest) :
    Takes (withFirst read) Means := by
  intro s a rest hfirst
  unfold withFirst at hfirst
  split at hfirst
  · cases hfirst
  · rename_i b t hskip
    obtain ⟨blank, hblank, rfl⟩ := exists_blank_of_skipBlank hskip
    obtain ⟨value, hvalue, hmeans, hs⟩ := hread b t a rest hfirst
    exact ⟨blank, value, hblank, hvalue, hmeans, by rw [hs]⟩

theorem IsString.isValue {text : String} {literal : Bytes} (hliteral : IsString text literal) :
    IsValue literal := by
  obtain ⟨hkey⟩ := hliteral
  exact .scalar (.string hkey.content)

theorem accepts_text {literal : Bytes} {text : String} (hliteral : IsString text literal) :
    Accepts Json.text literal text := by
  obtain ⟨hkey⟩ := hliteral
  refine accepts_withFirst (by decide) fun rest _ => ?_
  rw [if_pos rfl, List.append_assoc]
  exact string_eq_ok_iff.2 ⟨_, hkey, rfl⟩

theorem takes_text : Takes text IsString := by
  refine takes_withFirst fun b s a rest hread => ?_
  split at hread
  · rename_i hb
    obtain ⟨key, hkey, rfl⟩ := string_eq_ok_iff.1 hread
    exact ⟨_, (IsString.mk hkey).isValue, .mk hkey, by rw [hb]; simp⟩
  · exact absurd hread not_ok_of_refuse

/-! ## Lists -/

theorem nextElement_close (isFirst : Bool) {blank : Bytes} (hblank : Blank blank) (s : Bytes) :
    nextElement isFirst (blank ++ ascii ']' :: s) = .ok (false, ascii ']' :: s) := by
  rw [nextElement, skipBlank_append hblank, skipBlank_cons (by decide)]
  exact if_pos rfl

theorem nextElement_append {isFirst : Bool} {separator blank value : Bytes}
    (hseparator : Separator isFirst separator) (hblank : Blank blank) (hvalue : IsValue value)
    (s : Bytes) :
    nextElement isFirst (separator ++ (blank ++ (value ++ s))) = .ok (true, value ++ s) := by
  obtain ⟨b, t, rfl, hb, hclosing⟩ := hvalue.head
  have hclose : b ≠ ascii ']' := hclosing .list
  have hskip : skipBlank (blank ++ b :: (t ++ s)) = b :: (t ++ s) := by
    rw [skipBlank_append hblank, skipBlank_cons hb]
  rw [List.cons_append]
  cases hseparator with
  | first => simp only [List.nil_append, nextElement, hskip, if_neg hclose, if_true]
  | comma hcomma =>
      rw [List.append_assoc, nextElement, skipBlank_append hcomma, List.cons_append,
        List.nil_append, skipBlank_cons (by decide)]
      have hcomma : ascii ',' ≠ ascii ']' := by decide
      simp only [if_neg hcomma, hskip, if_neg hclose, if_true, Bool.false_eq_true, if_false]

/-- Behind the step to an element there is a first byte of it, or else the end of the list. -/
theorem exists_of_nextElement {isFirst more : Bool} {s t : Bytes}
    (hnext : nextElement isFirst s = .ok (more, t)) :
    (more = true ∧ ∃ separator blank, Separator isFirst separator ∧ Blank blank ∧
        s = separator ++ (blank ++ t)) ∨
      (more = false ∧ ∃ blank u, Blank blank ∧ s = blank ++ t ∧ t = ascii ']' :: u) := by
  unfold nextElement at hnext
  split at hnext
  · cases hnext
  · rename_i b u hfirst
    obtain ⟨blank, hblank, rfl⟩ := exists_blank_of_skipBlank hfirst
    split at hnext
    · rename_i hb
      obtain ⟨rfl, rfl⟩ := Prod.mk.inj (Except.ok.inj hnext)
      exact .inr ⟨rfl, blank, u, hblank, rfl, by rw [hb]⟩
    · split at hnext
      · rename_i hisFirst
        obtain ⟨rfl, rfl⟩ := Prod.mk.inj (Except.ok.inj hnext)
        exact .inl ⟨rfl, [], blank, hisFirst ▸ .first, hblank, rfl⟩
      · rename_i hisFirst
        obtain rfl : isFirst = false := by simpa using hisFirst
        split at hnext
        · rename_i hb
          split at hnext
          · cases hnext
          · rename_i c v hsecond
            obtain ⟨gap, hgap, rfl⟩ := exists_blank_of_skipBlank hsecond
            split at hnext
            · cases hnext
            · obtain ⟨rfl, rfl⟩ := Prod.mk.inj (Except.ok.inj hnext)
              exact .inl ⟨rfl, blank ++ [ascii ','], gap, .comma hblank, hgap, by rw [hb]; simp⟩
        · cases hnext

theorem closeList_append {blank : Bytes} (hblank : Blank blank) (s : Bytes) :
    closeList (blank ++ ascii ']' :: s) = .ok s := by
  rw [closeList, skipBlank_append hblank, skipBlank_cons (by decide)]
  exact if_pos rfl

theorem exists_of_closeList {s t : Bytes} (hclose : closeList s = .ok t) :
    ∃ blank, Blank blank ∧ s = blank ++ ascii ']' :: t := by
  unfold closeList at hclose
  split at hclose
  · cases hclose
  · rename_i b u hfirst
    obtain ⟨blank, hblank, rfl⟩ := exists_blank_of_skipBlank hfirst
    split at hclose
    · rename_i hb
      obtain rfl := Except.ok.inj hclose
      exact ⟨blank, hblank, by rw [hb]⟩
    · split at hclose
      · split at hclose <;> cases hclose
      · cases hclose

theorem element?_close (read : Reader α) (isFirst : Bool) {blank : Bytes} (hblank : Blank blank)
    (s : Bytes) : element? read isFirst (blank ++ ascii ']' :: s) = .ok (none, ascii ']' :: s) := by
  rw [element?, nextElement_close isFirst hblank]
  rfl

theorem element?_append {read : Reader α} {isFirst : Bool} {separator part value rest : Bytes}
    {a : α} (hseparator : Separator isFirst separator) (hpart : Element value part)
    (hread : Accepts read value a) (hrest : Stops rest) :
    element? read isFirst (separator ++ (part ++ rest)) = .ok (some a, rest) := by
  obtain ⟨hblank, hvalue⟩ := hpart
  rw [List.append_assoc, element?, nextElement_append hseparator hblank hvalue]
  refine bind_eq_ok_iff.2 ⟨_, rfl, bind_eq_ok_iff.2 ⟨(a, rest), ?_, rfl⟩⟩
  exact hread [] rest blank_nil hrest

/-- An element that is read is written behind its separator, and where none is read the list
ends. -/
theorem exists_of_element? {read : Reader α} {Means : α → Bytes → Prop} (hread : Takes read Means)
    {isFirst : Bool} {s t : Bytes} {found : Option α}
    (helement : element? read isFirst s = .ok (found, t)) :
    (∃ a separator part value, found = some a ∧ Separator isFirst separator ∧ Element value part ∧
        Means a value ∧ s = separator ++ (part ++ t)) ∨
      (found = none ∧ ∃ blank u, Blank blank ∧ s = blank ++ t ∧ t = ascii ']' :: u) := by
  obtain ⟨⟨more, s'⟩, hnext, hrest⟩ := bind_eq_ok_iff.1 helement
  rcases exists_of_nextElement hnext with
    ⟨rfl, separator, blank, hseparator, hblank, rfl⟩ | ⟨rfl, blank, u, hblank, rfl, rfl⟩
  · obtain ⟨⟨a, s''⟩, hown, hreturn⟩ := bind_eq_ok_iff.1 hrest
    obtain ⟨rfl, rfl⟩ := Prod.mk.inj (Except.ok.inj hreturn)
    obtain ⟨gap, value, hgap, hvalue, hmeans, rfl⟩ := hread s' a s'' hown
    exact .inl ⟨a, separator, _, value, rfl, hseparator, .mk (hblank.append hgap) hvalue, hmeans,
      by simp⟩
  · obtain ⟨rfl, rfl⟩ := Prod.mk.inj (Except.ok.inj hrest)
    exact .inr ⟨rfl, blank, u, hblank, rfl, rfl⟩

section Fields

variable {read : Reader α} {Means : α → Bytes → Prop} (hread : Takes read Means) {isFirst : Bool}
  {s rest : Bytes}
include hread

/-- An element that is read in front of a row makes a longer row. -/
theorem row_of_element?_some {a : α} {values : List Bytes} {row : Bytes}
    (helement : element? read isFirst s = .ok (some a, row ++ rest))
    (hrow : Row Element .list false values row) :
    ∃ value row', Means a value ∧ Row Element .list isFirst (value :: values) row' ∧
      s = row' ++ rest := by
  rcases exists_of_element? hread helement with
    ⟨b, separator, part, value, hb, hseparator, hpart, hmeans, rfl⟩ | ⟨hnone, -⟩
  · obtain rfl := Option.some.inj hb
    exact ⟨value, _, hmeans, .part hseparator hpart hrow, by simp⟩
  · cases hnone

/-- Where no element is read, the row ends. -/
theorem row_of_element?_none (helement : element? read isFirst s = .ok (none, rest)) :
    ∃ row u, Row Element .list isFirst [] row ∧ s = row ++ u ∧ rest = ascii ']' :: u := by
  rcases exists_of_element? hread helement with
    ⟨b, _, _, _, hb, -⟩ | ⟨-, blank, u, hblank, rfl, rfl⟩
  · cases hb
  · exact ⟨_, u, .close hblank, by simp; rfl, rfl⟩

end Fields

theorem row_of_closeList {s rest : Bytes} (hclose : closeList s = .ok rest) (isFirst : Bool) :
    ∃ row, Row Element .list isFirst [] row ∧ s = row ++ rest := by
  obtain ⟨blank, hblank, rfl⟩ := exists_of_closeList hclose
  exact ⟨_, .close hblank, by simp; rfl⟩

theorem Element.length_pos {value part : Bytes} (hpart : Element value part) : 0 < part.length := by
  obtain ⟨-, hvalue⟩ := hpart
  obtain ⟨b, t, rfl, -⟩ := hvalue.head
  simp

theorem stops_row {Part : α → Bytes → Prop} {bracket : Bracket} {parts : List α} {row : Bytes}
    (hrow : Row Part bracket false parts row) (s : Bytes) : Stops (row ++ s) := by
  cases hrow with
  | close hblank =>
      rw [List.append_assoc]
      exact stops_blank_append hblank (stops_closing bracket s)
  | part hseparator _ _ =>
      cases hseparator with
      | comma hblank =>
          rw [List.append_assoc, List.append_assoc]
          exact stops_blank_append hblank (stops_comma _)

theorem elements_append {read : Reader α} {isFirst : Bool} {values : List Bytes} {as : List α}
    {row : Bytes} (hrow : Row Element .list isFirst values row)
    (hread : List.Forall₂ (Accepts read) values as) {count : Nat} (hcount : row.length ≤ count)
    (rest : Bytes) : elements read count isFirst (row ++ rest) = .ok (as, rest) := by
  induction hrow generalizing as count with
  | @close isFirst blank hblank =>
      cases hread
      cases count with
      | zero => simp at hcount
      | succ count =>
          rw [List.append_assoc, elements]
          refine bind_eq_ok_iff.2 ⟨_, element?_close read isFirst hblank rest, ?_⟩
          exact bind_eq_ok_iff.2 ⟨rest, closeList_append blank_nil rest, rfl⟩
  | @part isFirst value values separator part row hseparator hpart hrow ih =>
      obtain ⟨a, as, haccepts, hothers, rfl⟩ := List.forall₂_cons_left_iff.1 hread
      have hpos := hpart.length_pos
      simp only [List.length_append] at hcount
      cases count with
      | zero => omega
      | succ count =>
          rw [List.append_assoc, List.append_assoc, elements]
          refine bind_eq_ok_iff.2
            ⟨_, element?_append hseparator hpart haccepts (stops_row hrow rest), ?_⟩
          exact bind_eq_ok_iff.2 ⟨_, ih hothers (by omega), rfl⟩

theorem exists_of_elements {read : Reader α} {Means : α → Bytes → Prop} (hread : Takes read Means)
    {count : Nat} {isFirst : Bool} {s rest : Bytes} {as : List α}
    (helements : elements read count isFirst s = .ok (as, rest)) :
    ∃ values row, Row Element .list isFirst values row ∧ List.Forall₂ Means as values ∧
      s = row ++ rest := by
  induction count generalizing isFirst s as with
  | zero => cases helements
  | succ count ih =>
      rw [elements] at helements
      obtain ⟨⟨found, s'⟩, helement, hnext⟩ := bind_eq_ok_iff.1 helements
      rcases exists_of_element? hread helement with
        ⟨a, separator, part, value, rfl, hseparator, hpart, hmeans, rfl⟩ |
          ⟨rfl, blank, u, hblank, rfl, rfl⟩
      · obtain ⟨⟨others, s''⟩, hothers, hreturn⟩ := bind_eq_ok_iff.1 hnext
        obtain ⟨rfl, rfl⟩ := Prod.mk.inj (Except.ok.inj hreturn)
        obtain ⟨values, row, hrow, hmeans', rfl⟩ := ih hothers
        exact ⟨value :: values, _, .part hseparator hpart hrow, .cons hmeans hmeans', by simp⟩
      · obtain ⟨s'', hclose, hreturn⟩ := bind_eq_ok_iff.1 hnext
        obtain ⟨rfl, rfl⟩ := Prod.mk.inj (Except.ok.inj hreturn)
        rw [← List.nil_append (ascii ']' :: u), closeList_append blank_nil] at hclose
        obtain rfl := Except.ok.inj hclose
        exact ⟨[], _, .close hblank, .nil, by simp; rfl⟩

theorem accepts_list {read : Reader α} {values : List Bytes} {as : List α} {row : Bytes}
    (hrow : Row Element .list true values row) (hread : List.Forall₂ (Accepts read) values as)
    (rest : Bytes) : list read (row ++ rest) = .ok (as, rest) :=
  elements_append hrow hread (by simp) rest

/-! ## Objects -/

theorem colon_append {blank : Bytes} (hblank : Blank blank) (s : Bytes) :
    colon (blank ++ ascii ':' :: s) = .ok s := by
  rw [colon, skipBlank_append hblank, skipBlank_cons (by decide)]
  exact if_pos rfl

theorem exists_of_colon {s t : Bytes} (hcolon : colon s = .ok t) :
    ∃ blank, Blank blank ∧ s = blank ++ ascii ':' :: t := by
  unfold colon at hcolon
  split at hcolon
  · cases hcolon
  · rename_i b u hskip
    obtain ⟨blank, hblank, rfl⟩ := exists_blank_of_skipBlank hskip
    split at hcolon
    · rename_i hb
      obtain rfl := Except.ok.inj hcolon
      exact ⟨blank, hblank, by rw [hb]⟩
    · cases hcolon

/-- What comes next is a colon and a value, with blanks in front of both. -/
inductive ColonValue (value : Bytes) : Bytes → Bytes → Prop where
  | mk {behind gap rest : Bytes} : Blank behind → Blank gap → IsValue value →
      ColonValue value (behind ++ ascii ':' :: (gap ++ (value ++ rest))) rest

section ColonValue

variable {read : Reader α} {Means : α → Bytes → Prop} {value s rest : Bytes} {a : α}

theorem memberValue_append (hread : Accepts read value a) (hs : ColonValue value s rest)
    (hrest : Stops rest) : memberValue read s = .ok (a, rest) := by
  obtain ⟨hbehind, hgap, -⟩ := hs
  exact bind_eq_ok_iff.2 ⟨_, colon_append hbehind _, hread _ rest hgap hrest⟩

theorem exists_of_memberValue (hread : Takes read Means)
    (hmember : memberValue read s = .ok (a, rest)) :
    ∃ value, ColonValue value s rest ∧ Means a value := by
  obtain ⟨t, hcolon, hown⟩ := bind_eq_ok_iff.1 hmember
  obtain ⟨behind, hbehind, rfl⟩ := exists_of_colon hcolon
  obtain ⟨gap, value, hgap, hvalue, hmeans, rfl⟩ := hread t a rest hown
  exact ⟨value, .mk hbehind hgap hvalue, hmeans⟩

/-- What was read behind a colon and kept is the value there. -/
theorem exists_of_keeps {next : σ} (hread : Takes read Means) (keep : α → σ)
    (hkept : (memberValue read s >>= fun (a, s) => .ok (keep a, s)) = .ok (next, rest)) :
    ∃ value a, ColonValue value s rest ∧ Means a value ∧ keep a = next := by
  obtain ⟨⟨a, s'⟩, hmember, hreturn⟩ := bind_eq_ok_iff.1 hkept
  obtain ⟨rfl, rfl⟩ := Prod.mk.inj (Except.ok.inj hreturn)
  obtain ⟨value, hs, hmeans⟩ := exists_of_memberValue hread hmember
  exact ⟨value, a, hs, hmeans, rfl⟩

theorem skipMember_append (hs : ColonValue value s rest) (hrest : Stops rest) :
    skipMember s = .ok rest := by
  obtain ⟨hbehind, hgap, hvalue⟩ := hs
  exact bind_eq_ok_iff.2 ⟨_, colon_append hbehind _, skip_append hgap hvalue hrest⟩

theorem exists_of_skipMember (hskip : skipMember s = .ok rest) :
    ∃ value, ColonValue value s rest := by
  obtain ⟨t, hcolon, hown⟩ := bind_eq_ok_iff.1 hskip
  obtain ⟨behind, hbehind, rfl⟩ := exists_of_colon hcolon
  obtain ⟨gap, value, hgap, hvalue, rfl⟩ := exists_of_skip hown
  exact ⟨value, .mk hbehind hgap hvalue⟩

theorem exists_of_passes {state next : σ}
    (hpassed : (skipMember s >>= fun s => .ok (state, s)) = .ok (next, rest)) :
    ∃ value, ColonValue value s rest ∧ state = next := by
  obtain ⟨s', hskip, hreturn⟩ := bind_eq_ok_iff.1 hpassed
  obtain ⟨rfl, rfl⟩ := Prod.mk.inj (Except.ok.inj hreturn)
  obtain ⟨value, hs⟩ := exists_of_skipMember hskip
  exact ⟨value, hs, rfl⟩

end ColonValue

/-- The step goes from a state to the next over the value of a member with this name. -/
def AcceptsMember (step : σ → String → Reader σ) (state : σ) (member : String × Bytes)
    (next : σ) : Prop :=
  ∀ s rest, ColonValue member.2 s rest → Stops rest → step state member.1 s = .ok (next, rest)

/-- Where a step reads a value and keeps it, it goes over what is read as a value. -/
theorem acceptsMember_of_keeps {step : σ → String → Reader σ} {state : σ}
    {member : String × Bytes} {read : Reader α} {a : α} (keep : α → σ)
    (hstep : ∀ s, step state member.1 s =
      memberValue read s >>= fun (a, s) => .ok (keep a, s))
    (hread : Accepts read member.2 a) : AcceptsMember step state member (keep a) := by
  intro s rest hs hrest
  rw [hstep]
  exact bind_eq_ok_iff.2 ⟨_, memberValue_append hread hs hrest, rfl⟩

/-- Where a step only passes a value over, it goes over any value. -/
theorem acceptsMember_of_passes {step : σ → String → Reader σ} {state : σ}
    {member : String × Bytes}
    (hstep : ∀ s, step state member.1 s = skipMember s >>= fun s => .ok (state, s)) :
    AcceptsMember step state member state := by
  intro s rest hs hrest
  rw [hstep]
  exact bind_eq_ok_iff.2 ⟨_, skipMember_append hs hrest, rfl⟩

/-- What the step passes over is the value of a member, which relates the states. -/
def TakesMember (step : σ → String → Reader σ) (Next : σ → String × Bytes → σ → Prop) : Prop :=
  ∀ state name s next rest, step state name s = .ok (next, rest) →
    ∃ value, ColonValue value s rest ∧ Next state (name, value) next

/-- A walk from state to state along some members. -/
inductive Walk (Next : σ → String × Bytes → σ → Prop) : σ → List (String × Bytes) → σ → Prop where
  | nil {state : σ} : Walk Next state [] state
  | cons {state next final : σ} {member : String × Bytes} {members : List (String × Bytes)} :
      Next state member next → Walk Next next members final →
        Walk Next state (member :: members) final

theorem nextKey_close (isFirst : Bool) {blank : Bytes} (hblank : Blank blank) (s : Bytes) :
    nextKey isFirst (blank ++ ascii '\x7d' :: s) = .ok (none, s) := by
  rw [nextKey, skipBlank_append hblank, skipBlank_cons (by decide)]
  exact if_pos rfl

theorem nextKey_append {isFirst : Bool} {separator before key : Bytes} {name : String}
    (hseparator : Separator isFirst separator) (hbefore : Blank before)
    (hkey : Denotes key (Text.bytes name)) (s : Bytes) :
    nextKey isFirst (separator ++ (before ++ ascii '"' :: (key ++ ascii '"' :: s))) =
      .ok (some name, s) := by
  have hstring : string (key ++ ascii '"' :: s) = .ok (name, s) :=
    string_eq_ok_iff.2 ⟨key, hkey, rfl⟩
  have hskip : skipBlank (before ++ ascii '"' :: (key ++ ascii '"' :: s)) =
      ascii '"' :: (key ++ ascii '"' :: s) := by
    rw [skipBlank_append hbefore, skipBlank_cons (by decide)]
  have hquote : ascii '"' ≠ ascii '\x7d' := by decide
  cases hseparator with
  | first =>
      simp only [List.nil_append, nextKey, hskip, if_neg hquote, if_true]
      exact bind_eq_ok_iff.2 ⟨_, hstring, rfl⟩
  | comma hcomma =>
      rw [List.append_assoc, nextKey, skipBlank_append hcomma, List.cons_append,
        List.nil_append, skipBlank_cons (by decide)]
      have hcomma : ascii ',' ≠ ascii '\x7d' := by decide
      simp only [if_neg hcomma, hskip, if_true, Bool.false_eq_true, if_false]
      exact bind_eq_ok_iff.2 ⟨_, hstring, rfl⟩

/-- A key that is read is written behind its separator, and where none is read the object ends. -/
theorem exists_of_nextKey {isFirst : Bool} {s t : Bytes} {found : Option String}
    (hnext : nextKey isFirst s = .ok (found, t)) :
    (∃ name separator before key, found = some name ∧ Separator isFirst separator ∧ Blank before ∧
        Denotes key (Text.bytes name) ∧
        s = separator ++ (before ++ ascii '"' :: (key ++ ascii '"' :: t))) ∨
      (found = none ∧ ∃ blank, Blank blank ∧ s = blank ++ ascii '\x7d' :: t) := by
  have hname {u : Bytes}
      (hread : (string u >>= fun key => pure (some key.1, key.2)) = .ok (found, t)) :
      ∃ name key, found = some name ∧ Denotes key (Text.bytes name) ∧
        u = key ++ ascii '"' :: t := by
    obtain ⟨⟨name, t'⟩, hstring, hreturn⟩ := bind_eq_ok_iff.1 hread
    obtain ⟨rfl, rfl⟩ := Prod.mk.inj (Except.ok.inj hreturn)
    obtain ⟨key, hkey, rfl⟩ := string_eq_ok_iff.1 hstring
    exact ⟨name, key, rfl, hkey, rfl⟩
  unfold nextKey at hnext
  split at hnext
  · cases hnext
  · rename_i b u hfirst
    obtain ⟨blank, hblank, rfl⟩ := exists_blank_of_skipBlank hfirst
    split at hnext
    · rename_i hb
      obtain ⟨rfl, rfl⟩ := Prod.mk.inj (Except.ok.inj hnext)
      exact .inr ⟨rfl, blank, hblank, by rw [hb]⟩
    · split at hnext
      · rename_i hisFirst
        split at hnext
        · rename_i hb
          obtain ⟨name, key, rfl, hkey, rfl⟩ := hname hnext
          exact .inl ⟨name, [], blank, key, rfl, hisFirst ▸ .first, hblank, hkey, by rw [hb]; rfl⟩
        · cases hnext
      · rename_i hisFirst
        obtain rfl : isFirst = false := by simpa using hisFirst
        split at hnext
        · rename_i hb
          split at hnext
          · cases hnext
          · rename_i c v hsecond
            obtain ⟨before, hbefore, rfl⟩ := exists_blank_of_skipBlank hsecond
            split at hnext
            · rename_i hc
              obtain ⟨name, key, rfl, hkey, rfl⟩ := hname hnext
              exact .inl ⟨name, blank ++ [ascii ','], before, key, rfl, .comma hblank, hbefore,
                hkey, by rw [hb, hc]; simp⟩
            · split at hnext <;> cases hnext
        · cases hnext

theorem Member.length_pos {member : String × Bytes} {part : Bytes} (hpart : Member member part) :
    0 < part.length := by
  cases hpart
  simp

theorem members_append {step : σ → String → Reader σ} {isFirst : Bool}
    {written : List (String × Bytes)} {row : Bytes} (hrow : Row Member .object isFirst written row)
    {state final : σ} (hwalk : Walk (AcceptsMember step) state written final) {count : Nat}
    (hcount : row.length ≤ count) (rest : Bytes) :
    members step count isFirst state (row ++ rest) = .ok (final, rest) := by
  induction hrow generalizing state count with
  | @close isFirst blank hblank =>
      cases hwalk
      cases count with
      | zero => simp at hcount
      | succ count =>
          rw [List.append_assoc, members]
          exact bind_eq_ok_iff.2 ⟨_, nextKey_close isFirst hblank rest, rfl⟩
  | @part isFirst member others separator part row hseparator hpart hrow ih =>
      have hpos := hpart.length_pos
      cases hwalk with
      | cons hstep hwalk =>
          simp only [List.length_append] at hcount
          cases count with
          | zero => omega
          | succ count =>
              obtain ⟨hbefore, hkey, hbehind, hgap, hvalue⟩ := hpart
              have hnext := nextKey_append hseparator hbefore hkey
              have hstep := hstep _ (row ++ rest) (.mk hbehind hgap hvalue) (stops_row hrow rest)
              rw [members]
              simp only [List.append_assoc, List.cons_append]
              refine bind_eq_ok_iff.2 ⟨_, hnext _, ?_⟩
              exact bind_eq_ok_iff.2 ⟨_, hstep, ih hwalk (by omega)⟩

theorem exists_of_members {step : σ → String → Reader σ} {Next : σ → String × Bytes → σ → Prop}
    (hstep : TakesMember step Next) {count : Nat} {isFirst : Bool} {state final : σ}
    {s rest : Bytes} (hmembers : members step count isFirst state s = .ok (final, rest)) :
    ∃ written row, Row Member .object isFirst written row ∧ Walk Next state written final ∧
      s = row ++ rest := by
  induction count generalizing isFirst s state with
  | zero => cases hmembers
  | succ count ih =>
      rw [members] at hmembers
      obtain ⟨⟨found, s'⟩, hfound, hnext⟩ := bind_eq_ok_iff.1 hmembers
      rcases exists_of_nextKey hfound with
        ⟨name, separator, before, key, rfl, hseparator, hbefore, hkey, rfl⟩ |
          ⟨rfl, blank, hblank, rfl⟩
      · obtain ⟨⟨next, s''⟩, hown, hothers⟩ := bind_eq_ok_iff.1 hnext
        obtain ⟨value, ⟨hbehind, hgap, hvalue⟩, hrelated⟩ :=
          hstep state name s' next s'' hown
        obtain ⟨written, row, hrow, hwalk, rfl⟩ := ih hothers
        exact ⟨(name, value) :: written, _,
          .part hseparator (.mk hbefore hkey hbehind hgap hvalue) hrow, .cons hrelated hwalk,
          by simp⟩
      · obtain ⟨rfl, rfl⟩ := Prod.mk.inj (Except.ok.inj hnext)
        exact ⟨[], _, .close hblank, .nil, by simp; rfl⟩

theorem accepts_object {step : σ → String → Reader σ} {written : List (String × Bytes)}
    {row : Bytes} (hrow : Row Member .object true written row) {state final : σ}
    (hwalk : Walk (AcceptsMember step) state written final) (rest : Bytes) :
    object step state (row ++ rest) = .ok (final, rest) :=
  members_append hrow hwalk (by simp) rest

/-! ## The end of a document -/

theorem ended_eq_ok_iff {s : Bytes} : ended s = .ok () ↔ Blank s := by
  have hskip : skipBlank s = [] ↔ Blank s := List.dropWhile_eq_nil_iff
  rw [← hskip]
  unfold ended
  split
  · rename_i h
    simp [h]
  · rename_i h
    simp [h]

end MockHttp.Json
