import MockHttp.Proofs.Json.Numbers
import MockHttp.Proofs.Json.Strings
import MockHttp.Proofs.Text.Validity
/-!
# Values that are passed over

Passing over a value ends exactly where the value does, however deep it nests, and the raw text of
a value is the value without the blanks around it.
-/

namespace MockHttp.Json

/-! ## Words and scalars -/

theorem word_append (letters : List Char) (rest : Bytes) :
    word letters (letters.map ascii ++ rest) = .ok rest := by
  induction letters with
  | nil => rfl
  | cons c letters ih => rw [List.map_cons, List.cons_append, word, if_pos rfl, ih]

theorem eq_of_word {letters : List Char} {s rest : Bytes} (hword : word letters s = .ok rest) :
    s = letters.map ascii ++ rest := by
  induction letters generalizing s with
  | nil => exact Except.ok.inj hword
  | cons c letters ih =>
      cases s with
      | nil => cases hword
      | cons b s =>
          rw [word] at hword
          split at hword
          · rename_i hb
            rw [hb, ih hword]
            rfl
          · cases hword

theorem Unsigned.head {s : Bytes} (hs : Unsigned s) : ∃ b t, s = b :: t ∧ isDigit b = true := by
  obtain ⟨⟨hdigits, -⟩, -, -⟩ := hs
  obtain ⟨b, t, rfl, hb, -⟩ := hdigits.exists_cons
  exact ⟨b, _, rfl, hb⟩

/-- A byte that a scalar may start with. -/
def StartsScalar (b : UInt8) : Prop :=
  b ∈ [ascii 'n', ascii 't', ascii 'f', ascii '-', ascii '"'] ∨ isDigit b = true

theorem IsScalar.head {s : Bytes} (hs : IsScalar s) : ∃ b t, s = b :: t ∧ StartsScalar b := by
  cases hs with
  | null => exact ⟨_, _, rfl, .inl (by decide)⟩
  | true => exact ⟨_, _, rfl, .inl (by decide)⟩
  | false => exact ⟨_, _, rfl, .inl (by decide)⟩
  | unsigned hs =>
      obtain ⟨b, t, rfl, hb⟩ := hs.head
      exact ⟨b, t, rfl, .inr hb⟩
  | minus _ => exact ⟨_, _, rfl, .inl (by decide)⟩
  | string _ => exact ⟨_, _, rfl, .inl (by decide)⟩

theorem StartsScalar.ne {b c : UInt8} (hb : StartsScalar b)
    (hc : c ∉ [ascii 'n', ascii 't', ascii 'f', ascii '-', ascii '"'] ∧ isDigit c = false) :
    b ≠ c := by
  rintro rfl
  rcases hb with h | h
  · exact hc.1 h
  · rw [hc.2] at h
    cases h

theorem StartsScalar.opened? {b : UInt8} (hb : StartsScalar b) : opened? b = none := by
  rw [Json.opened?, if_neg (hb.ne (by decide)), if_neg (hb.ne (by decide))]

theorem StartsScalar.isBlank {b : UInt8} (hb : StartsScalar b) : isBlank b = false := by
  simp [Json.isBlank, hb.ne (c := 32) (by decide), hb.ne (c := 9) (by decide),
    hb.ne (c := 13) (by decide), hb.ne (c := 10) (by decide)]

theorem skipScalar_append {s rest : Bytes} (hs : IsScalar s) (hrest : Stops rest) :
    skipScalar (s ++ rest) = .ok rest := by
  cases hs with
  | null => exact word_append ['u', 'l', 'l'] rest
  | true => exact word_append ['r', 'u', 'e'] rest
  | false => exact word_append ['a', 'l', 's', 'e'] rest
  | unsigned hs =>
      have hnumber := skipNumber_append hs hrest
      obtain ⟨b, t, rfl, hb⟩ := hs.head
      have hne {c : UInt8} (hc : isDigit c = false) : b ≠ c := by
        rintro rfl
        rw [hc] at hb
        cases hb
      rw [List.cons_append] at hnumber ⊢
      rw [skipScalar, if_neg (hne (by decide)), if_neg (hne (by decide)),
        if_neg (hne (by decide)), if_neg (hne (by decide)), if_pos hb]
      exact hnumber
  | minus hs => exact skipNumber_append hs hrest
  | string hs =>
      rw [List.cons_append, List.append_assoc]
      exact skipString_eq_ok_iff.2 ⟨_, hs, rfl⟩

theorem exists_of_skipScalar {s rest : Bytes} (hskip : skipScalar s = .ok rest) :
    ∃ value, IsScalar value ∧ s = value ++ rest := by
  unfold skipScalar at hskip
  split at hskip
  · cases hskip
  · rename_i b s
    split at hskip
    · rename_i hb
      exact ⟨_, .null, by rw [hb, eq_of_word hskip]; rfl⟩
    · split at hskip
      · rename_i hb
        exact ⟨_, .true, by rw [hb, eq_of_word hskip]; rfl⟩
      · split at hskip
        · rename_i hb
          exact ⟨_, .false, by rw [hb, eq_of_word hskip]; rfl⟩
        · split at hskip
          · rename_i hb
            obtain ⟨number, hnumber, rfl⟩ := exists_of_skipNumber hskip
            exact ⟨_, .minus hnumber, by rw [hb]; rfl⟩
          · split at hskip
            · obtain ⟨number, hnumber, hs⟩ := exists_of_skipNumber hskip
              exact ⟨number, .unsigned hnumber, hs⟩
            · split at hskip
              · rename_i hb
                obtain ⟨content, hcontent, rfl⟩ := skipString_eq_ok_iff.1 hskip
                exact ⟨_, .string hcontent, by rw [hb]; simp⟩
              · cases hskip

/-! ## Brackets and keys -/

theorem opened?_opening (bracket : Bracket) : opened? bracket.opening = some bracket := by
  cases bracket <;> rfl

theorem isBlank_opening (bracket : Bracket) : isBlank bracket.opening = false := by
  cases bracket <;> decide

theorem isBlank_closing (bracket : Bracket) : isBlank bracket.closing = false := by
  cases bracket <;> decide

theorem opening_ne_closing (bracket other : Bracket) : bracket.opening ≠ other.closing := by
  cases bracket <;> cases other <;> decide

theorem closing_ne_comma (bracket : Bracket) : bracket.closing ≠ ascii ',' := by
  cases bracket <;> decide

theorem opening_eq_of_opened? {b : UInt8} {bracket : Bracket} (hopened : opened? b = some bracket) :
    b = bracket.opening := by
  unfold opened? at hopened
  split at hopened
  · rename_i hb
    obtain rfl := Option.some.inj hopened
    exact hb
  · split at hopened
    · rename_i hb
      obtain rfl := Option.some.inj hopened
      exact hb
    · cases hopened

/-- The first byte of a value is no blank and closes no bracket. -/
theorem IsValue.head {value : Bytes} (hvalue : IsValue value) :
    ∃ b t, value = b :: t ∧ isBlank b = false ∧ ∀ bracket : Bracket, b ≠ bracket.closing := by
  cases hvalue with
  | scalar hscalar =>
      obtain ⟨b, t, rfl, hb⟩ := hscalar.head
      exact ⟨b, t, rfl, hb.isBlank, fun bracket => hb.ne (by cases bracket <;> decide)⟩
  | hollow bracket _ =>
      exact ⟨_, _, rfl, isBlank_opening bracket, opening_ne_closing bracket⟩
  | filled bracket _ _ _ =>
      exact ⟨_, _, rfl, isBlank_opening bracket, opening_ne_closing bracket⟩

theorem IsValue.skipBlank_append {value : Bytes} (hvalue : IsValue value) (s : Bytes) :
    skipBlank (value ++ s) = value ++ s := by
  obtain ⟨b, t, rfl, hb, -⟩ := hvalue.head
  exact skipBlank_cons hb _

theorem stops_cons {b : UInt8} (hb : isDigit b = false ∧ b ≠ ascii '.' ∧ isExponentMark b = false)
    (s : Bytes) : Stops (b :: s) := by
  intro c hc
  obtain rfl := Option.some.inj hc
  exact hb

theorem stops_blank_append {blank s : Bytes} (hblank : Blank blank) (hs : Stops s) :
    Stops (blank ++ s) := by
  cases blank with
  | nil => exact hs
  | cons b blank =>
      have hb : isBlank b = true := hblank b List.mem_cons_self
      simp only [isBlank, Bool.decide_or, Bool.or_eq_true, decide_eq_true_eq] at hb
      refine stops_cons ?_ _
      rcases hb with rfl | rfl | rfl | rfl <;> decide

theorem stops_closing (bracket : Bracket) (s : Bytes) : Stops (bracket.closing :: s) :=
  stops_cons (by cases bracket <;> decide) s

theorem stops_comma (s : Bytes) : Stops (ascii ',' :: s) :=
  stops_cons (by decide) s

theorem IsRest.stops_append {bracket : Bracket} {rest : Bytes} (hrest : IsRest bracket rest)
    (s : Bytes) : Stops (rest ++ s) := by
  cases hrest with
  | close _ hblank =>
      rw [List.append_assoc]
      exact stops_blank_append hblank (stops_closing bracket s)
  | comma _ hblank _ _ _ =>
      rw [List.append_assoc]
      exact stops_blank_append hblank (stops_comma _)

theorem Lead.blank_append {bracket : Bracket} {blank lead : Bytes} (hblank : Blank blank)
    (hlead : Lead bracket lead) : Lead bracket (blank ++ lead) := by
  cases hlead with
  | list hs => exact .list (hblank.append hs)
  | object hbefore hkey hbehind hgap =>
      rw [← List.append_assoc]
      exact .object (hblank.append hbefore) hkey hbehind hgap

/-- Behind a key only blanks are left of what stands in front of a value. -/
theorem skipKey_append {bracket : Bracket} {lead : Bytes} (hlead : Lead bracket lead)
    (s : Bytes) : ∃ blank, Blank blank ∧ skipKey bracket (lead ++ s) = .ok (blank ++ s) := by
  cases hlead with
  | list hblank => exact ⟨lead, hblank, rfl⟩
  | @object before key behind gap hbefore hkey hbehind hgap =>
      refine ⟨gap, hgap, ?_⟩
      have hquote : skipBlank (before ++ ascii '"' :: (key ++ ascii '"' ::
          (behind ++ ascii ':' :: gap)) ++ s) =
          ascii '"' :: (key ++ ascii '"' :: (behind ++ ascii ':' :: (gap ++ s))) := by
        rw [List.append_assoc, Json.skipBlank_append hbefore]
        simp [skipBlank_cons (show isBlank (ascii '"') = false by decide)]
      have hcolon : skipBlank (behind ++ ascii ':' :: (gap ++ s)) = ascii ':' :: (gap ++ s) := by
        rw [Json.skipBlank_append hbehind, skipBlank_cons (by decide)]
      simp only [skipKey, hquote]
      rw [if_neg (by simp)]
      refine bind_eq_ok_iff.2 ⟨_, skipString_eq_ok_iff.2 ⟨key, hkey, rfl⟩, ?_⟩
      rw [hcolon]
      exact if_pos rfl

theorem exists_of_skipKey {bracket : Bracket} {s t : Bytes} (hskip : skipKey bracket s = .ok t) :
    ∃ lead, s = lead ++ t ∧ ∀ gap, Blank gap → Lead bracket (lead ++ gap) := by
  cases bracket with
  | list =>
      obtain rfl := Except.ok.inj hskip
      exact ⟨[], rfl, fun gap hgap => .list hgap⟩
  | object =>
      simp only [skipKey] at hskip
      split at hskip
      · cases hskip
      · rename_i b s' hquote
        split at hskip
        · cases hskip
        · rename_i hb
          obtain ⟨s'', hstring, hnext⟩ := bind_eq_ok_iff.1 hskip
          obtain ⟨key, hkey, rfl⟩ := skipString_eq_ok_iff.1 hstring
          split at hnext
          · cases hnext
          · rename_i c s''' hcolon
            split at hnext
            · rename_i hc
              obtain rfl := Except.ok.inj hnext
              obtain ⟨before, hbefore, rfl⟩ := exists_blank_of_skipBlank hquote
              obtain ⟨behind, hbehind, rfl⟩ := exists_blank_of_skipBlank hcolon
              refine ⟨before ++ ascii '"' :: (key ++ ascii '"' :: (behind ++ [ascii ':'])),
                ?_, fun gap hgap => ?_⟩
              · rw [not_not.1 hb, hc]
                simp
              · simpa using Lead.object hbefore hkey hbehind hgap
            · cases hnext

/-! ## A value and what the open brackets still hold -/

/-- Without its blanks in front, what stands in front of a value still does, and with the value it
is told from the end of the bracket. -/
theorem Lead.exists_skipBlank_append {bracket : Bracket} {lead value : Bytes}
    (hlead : Lead bracket lead) (hvalue : IsValue value) (s : Bytes) :
    ∃ lead' b t, Lead bracket lead' ∧ b ≠ bracket.closing ∧
      lead' ++ (value ++ s) = b :: t ∧ skipBlank (lead ++ (value ++ s)) = b :: t := by
  cases hlead with
  | list hblank =>
      obtain ⟨b, t, rfl, hb, hclosing⟩ := hvalue.head
      refine ⟨[], b, t ++ s, .list blank_nil, hclosing _, rfl, ?_⟩
      rw [Json.skipBlank_append hblank, List.cons_append, skipBlank_cons hb]
  | object hbefore hkey hbehind hgap =>
      refine ⟨_, _, _, .object blank_nil hkey hbehind hgap, by decide, rfl, ?_⟩
      rw [List.append_assoc, Json.skipBlank_append hbefore, List.cons_append,
        skipBlank_cons (by decide)]
      rfl

section Steps

variable {blank : Bytes} (hblank : Blank blank) (bracket : Bracket) (brackets : List Bracket)
  (steps : Nat)
include hblank

theorem skipValue_scalar {value s : Bytes} (hvalue : IsScalar value) (hs : Stops s) :
    skipValue (steps + 1) brackets (blank ++ (value ++ s)) = skipBehindValue steps brackets s := by
  have hskip := skipScalar_append hvalue hs
  obtain ⟨b, t, rfl, hb⟩ := hvalue.head
  rw [List.cons_append] at hskip ⊢
  rw [skipValue, skipBlank_append hblank, skipBlank_cons hb.isBlank]
  simp only [hb.opened?, hskip]
  rfl

theorem skipValue_hollow {inner : Bytes} (hinner : Blank inner) (s : Bytes) :
    skipValue (steps + 1) brackets
        (blank ++ bracket.opening :: (inner ++ bracket.closing :: s)) =
      skipBehindValue steps brackets s := by
  rw [skipValue, skipBlank_append hblank, skipBlank_cons (isBlank_opening bracket)]
  simp only [opened?_opening]
  rw [skipBlank_append hinner, skipBlank_cons (isBlank_closing bracket)]
  exact if_pos rfl

theorem skipValue_filled {lead value : Bytes} (hlead : Lead bracket lead) (hvalue : IsValue value)
    (s : Bytes) : ∃ gap, Blank gap ∧
      skipValue (steps + 1) brackets (blank ++ bracket.opening :: (lead ++ (value ++ s))) =
        skipValue steps (bracket :: brackets) (gap ++ (value ++ s)) := by
  obtain ⟨lead', b, t, hlead', hb, hcons, hskip⟩ := hlead.exists_skipBlank_append hvalue s
  obtain ⟨gap, hgap, hkey⟩ := skipKey_append hlead' (value ++ s)
  refine ⟨gap, hgap, ?_⟩
  rw [hcons] at hkey
  rw [skipValue, skipBlank_append hblank, skipBlank_cons (isBlank_opening bracket)]
  simp only [opened?_opening, hskip, if_neg hb, hkey]
  rfl

theorem skipBehindValue_close (s : Bytes) :
    skipBehindValue (steps + 1) (bracket :: brackets) (blank ++ bracket.closing :: s) =
      skipBehindValue steps brackets s := by
  rw [skipBehindValue, skipBlank_append hblank, skipBlank_cons (isBlank_closing bracket)]
  simp only [if_neg (closing_ne_comma bracket), if_true]

theorem skipBehindValue_comma {lead : Bytes} (hlead : Lead bracket lead) (s : Bytes) :
    ∃ gap, Blank gap ∧
      skipBehindValue (steps + 1) (bracket :: brackets) (blank ++ ascii ',' :: (lead ++ s)) =
        skipValue steps (bracket :: brackets) (gap ++ s) := by
  obtain ⟨gap, hgap, hkey⟩ := skipKey_append hlead s
  refine ⟨gap, hgap, ?_⟩
  rw [skipBehindValue, skipBlank_append hblank, skipBlank_cons (by decide)]
  simp only [if_true, hkey]
  rfl

end Steps

mutual

/-- A value is passed over in no more steps than it has bytes. -/
theorem skipValue_append : {value : Bytes} → IsValue value → ∀ (left : Nat)
    (brackets : List Bracket) (blank s : Bytes), Blank blank → Stops s → ∃ left', left ≤ left' ∧
      skipValue (left + value.length) brackets (blank ++ (value ++ s)) =
        skipBehindValue left' brackets s
  | value, .scalar hscalar, left, brackets, blank, s, hblank, hs => by
      have hlength : value.length ≠ 0 := by
        obtain ⟨b, t, rfl, -⟩ := hscalar.head
        exact Nat.succ_ne_zero _
      refine ⟨left + value.length - 1, by omega, ?_⟩
      rw [← skipValue_scalar hblank brackets _ hscalar hs]
      congr 1
      omega
  | _, .hollow bracket hinner, left, brackets, blank, s, hblank, hs => by
      rename_i inner
      refine ⟨left + inner.length + 1, by omega, ?_⟩
      rw [← skipValue_hollow hblank bracket brackets _ hinner s]
      simp [Nat.add_assoc]
  | _, .filled bracket hlead hvalue hrest, left, brackets, blank, s, hblank, hs => by
      rename_i lead value rest
      obtain ⟨gap, hgap, hfilled⟩ := skipValue_filled hblank bracket brackets
        (left + lead.length + rest.length + value.length) hlead hvalue (rest ++ s)
      obtain ⟨left₁, hleft₁, hstep₁⟩ := skipValue_append hvalue (left + lead.length + rest.length)
        (bracket :: brackets) gap (rest ++ s) hgap (hrest.stops_append s)
      obtain ⟨left₂, hleft₂, hstep₂⟩ := skipBehindValue_append hrest (left₁ - rest.length)
        brackets s hs
      refine ⟨left₂, by omega, ?_⟩
      rw [← hstep₂, Nat.sub_add_cancel (by omega), ← hstep₁, ← hfilled]
      congr 1
      · simp only [List.length_cons, List.length_append]
        omega
      · simp

/-- The rest of a bracket is passed over in no more steps than it has bytes. -/
theorem skipBehindValue_append : {bracket : Bracket} → {rest : Bytes} → IsRest bracket rest →
    ∀ (left : Nat) (brackets : List Bracket) (s : Bytes), Stops s → ∃ left', left ≤ left' ∧
      skipBehindValue (left + rest.length) (bracket :: brackets) (rest ++ s) =
        skipBehindValue left' brackets s
  | bracket, _, .close _ hblank, left, brackets, s, hs => by
      rename_i blank
      refine ⟨left + blank.length, by omega, ?_⟩
      rw [← skipBehindValue_close hblank bracket brackets _ s]
      simp [Nat.add_assoc]
  | bracket, _, .comma _ hblank hlead hvalue hrest, left, brackets, s, hs => by
      rename_i blank lead value rest
      obtain ⟨gap, hgap, hcomma⟩ := skipBehindValue_comma hblank bracket brackets
        (left + blank.length + lead.length + rest.length + value.length) hlead
        (value ++ (rest ++ s))
      obtain ⟨left₁, hleft₁, hstep₁⟩ := skipValue_append hvalue
        (left + blank.length + lead.length + rest.length)
        (bracket :: brackets) gap (rest ++ s) hgap (hrest.stops_append s)
      obtain ⟨left₂, hleft₂, hstep₂⟩ := skipBehindValue_append hrest (left₁ - rest.length)
        brackets s hs
      refine ⟨left₂, by omega, ?_⟩
      rw [← hstep₂, Nat.sub_add_cancel (by omega), ← hstep₁, ← hcomma]
      congr 1
      · simp only [List.length_cons, List.length_append]
        omega
      · simp

end

/-- A value is passed over to its end. -/
theorem skip_append {blank value rest : Bytes} (hblank : Blank blank) (hvalue : IsValue value)
    (hrest : Stops rest) : skip (blank ++ (value ++ rest)) = .ok rest := by
  obtain ⟨left, -, hstep⟩ := skipValue_append hvalue (blank.length + rest.length + 1) [] blank rest
    hblank hrest
  have hlength : (blank ++ (value ++ rest)).length + 1 =
      blank.length + rest.length + 1 + value.length := by
    simp only [List.length_append]
    omega
  rw [skip, hlength, hstep, skipBehindValue]

section Inversion

variable {steps : Nat} {s t : Bytes}

/-- What a step that passes over a value can start with: a scalar, an empty bracket, or a bracket
that stays open. -/
theorem skipValue_cases {brackets : List Bracket}
    (hskip : skipValue (steps + 1) brackets s = .ok t) :
    ∃ blank, Blank blank ∧
      ((∃ value u, IsScalar value ∧ s = blank ++ (value ++ u) ∧
          skipBehindValue steps brackets u = .ok t) ∨
        (∃ (bracket : Bracket) (inner u : Bytes), Blank inner ∧
          s = blank ++ bracket.opening :: (inner ++ bracket.closing :: u) ∧
          skipBehindValue steps brackets u = .ok t) ∨
        ∃ bracket lead u, (∀ gap, Blank gap → Lead bracket (lead ++ gap)) ∧
          s = blank ++ bracket.opening :: (lead ++ u) ∧
          skipValue steps (bracket :: brackets) u = .ok t) := by
  rw [skipValue] at hskip
  split at hskip
  · cases hskip
  · rename_i b s' hfirst
    obtain ⟨blank, hblank, hs⟩ := exists_blank_of_skipBlank hfirst
    refine ⟨blank, hblank, ?_⟩
    split at hskip
    · obtain ⟨u, hscalar, hbehind⟩ := bind_eq_ok_iff.1 hskip
      obtain ⟨value, hvalue, hs'⟩ := exists_of_skipScalar hscalar
      exact .inl ⟨value, u, hvalue, by rw [hs, hs'], hbehind⟩
    · rename_i bracket hopened
      obtain rfl := opening_eq_of_opened? hopened
      split at hskip
      · cases hskip
      · rename_i c u hsecond
        obtain ⟨inner, hinner, hs'⟩ := exists_blank_of_skipBlank hsecond
        split at hskip
        · rename_i hc
          exact .inr (.inl ⟨bracket, inner, u, hinner, by rw [hs, hs', hc], hskip⟩)
        · obtain ⟨v, hkey, hvalue⟩ := bind_eq_ok_iff.1 hskip
          obtain ⟨lead, hlead, hgap⟩ := exists_of_skipKey hkey
          refine .inr (.inr ⟨bracket, inner ++ lead, v, fun gap hblank' => ?_, ?_, hvalue⟩)
          · rw [List.append_assoc]
            exact (hgap gap hblank').blank_append hinner
          · rw [hs, hs', hlead, List.append_assoc]

/-- What a step behind a value can start with: the end of the bracket, or a comma. -/
theorem skipBehindValue_cases {bracket : Bracket} {brackets : List Bracket}
    (hskip : skipBehindValue (steps + 1) (bracket :: brackets) s = .ok t) :
    ∃ blank, Blank blank ∧
      ((∃ u, s = blank ++ bracket.closing :: u ∧ skipBehindValue steps brackets u = .ok t) ∨
        ∃ lead u, (∀ gap, Blank gap → Lead bracket (lead ++ gap)) ∧
          s = blank ++ ascii ',' :: (lead ++ u) ∧
          skipValue steps (bracket :: brackets) u = .ok t) := by
  rw [skipBehindValue] at hskip
  split at hskip
  · cases hskip
  · rename_i b u hfirst
    obtain ⟨blank, hblank, hs⟩ := exists_blank_of_skipBlank hfirst
    refine ⟨blank, hblank, ?_⟩
    split at hskip
    · rename_i hb
      obtain ⟨v, hkey, hvalue⟩ := bind_eq_ok_iff.1 hskip
      obtain ⟨lead, hlead, hgap⟩ := exists_of_skipKey hkey
      exact .inr ⟨lead, v, hgap, by rw [hs, hb, hlead], hvalue⟩
    · split at hskip
      · rename_i hb
        exact .inl ⟨u, by rw [hs, hb], hskip⟩
      · cases hskip

end Inversion

/-- What open brackets hold up to some rest. -/
inductive Closes : List Bracket → Bytes → Bytes → Prop where
  | nil {s : Bytes} : Closes [] s s
  | cons {bracket : Bracket} {brackets : List Bracket} {part s t : Bytes} : IsRest bracket part →
      Closes brackets s t → Closes (bracket :: brackets) (part ++ s) t

/-- What is passed over is a value and what the open brackets still hold, or the latter alone. -/
theorem exists_of_skip_steps (steps : Nat) :
    (∀ {brackets : List Bracket} {s t : Bytes}, skipValue steps brackets s = .ok t →
      ∃ blank value u, Blank blank ∧ IsValue value ∧ s = blank ++ (value ++ u) ∧
        Closes brackets u t) ∧
    ∀ {brackets : List Bracket} {s t : Bytes}, skipBehindValue steps brackets s = .ok t →
      Closes brackets s t := by
  induction steps with
  | zero =>
      constructor
      · intro brackets s t hskip
        cases hskip
      · intro brackets s t hskip
        cases brackets with
        | nil => exact Except.ok.inj hskip ▸ .nil
        | cons bracket brackets => cases hskip
  | succ steps ih =>
      obtain ⟨ihvalue, ihbehind⟩ := ih
      -- a bracket that stays open is closed by the first part of what the inner value leaves
      have hinner {bracket : Bracket} {brackets : List Bracket} {u t : Bytes}
          (hskip : skipValue steps (bracket :: brackets) u = .ok t) :
          ∃ gap value rest v, Blank gap ∧ IsValue value ∧ IsRest bracket rest ∧
            u = gap ++ (value ++ (rest ++ v)) ∧ Closes brackets v t := by
        obtain ⟨gap, value, w, hgap, hvalue, rfl, hcloses⟩ := ihvalue hskip
        cases hcloses with
        | cons hrest hcloses => exact ⟨gap, value, _, _, hgap, hvalue, hrest, rfl, hcloses⟩
      constructor
      · intro brackets s t hskip
        obtain ⟨blank, hblank, ⟨value, u, hvalue, rfl, hbehind⟩ |
          ⟨bracket, inner, u, hhollow, rfl, hbehind⟩ | ⟨bracket, lead, u, hlead, rfl, hopen⟩⟩ :=
          skipValue_cases hskip
        · exact ⟨blank, value, u, hblank, .scalar hvalue, rfl, ihbehind hbehind⟩
        · exact ⟨blank, _, u, hblank, .hollow bracket hhollow, by simp, ihbehind hbehind⟩
        · obtain ⟨gap, value, rest, v, hgap, hvalue, hrest, rfl, hcloses⟩ := hinner hopen
          exact ⟨blank, _, v, hblank, .filled bracket (hlead gap hgap) hvalue hrest, by simp,
            hcloses⟩
      · intro brackets s t hskip
        cases brackets with
        | nil =>
            rw [skipBehindValue] at hskip
            exact Except.ok.inj hskip ▸ .nil
        | cons bracket brackets =>
            obtain ⟨blank, hblank, ⟨u, rfl, hbehind⟩ | ⟨lead, u, hlead, rfl, hopen⟩⟩ :=
              skipBehindValue_cases hskip
            · simpa using Closes.cons (.close bracket hblank) (ihbehind hbehind)
            · obtain ⟨gap, value, rest, v, hgap, hvalue, hrest, rfl, hcloses⟩ := hinner hopen
              simpa using Closes.cons (.comma bracket hblank (hlead gap hgap) hvalue hrest) hcloses

/-- What is passed over is one value with blanks in front of it. -/
theorem exists_of_skip {s rest : Bytes} (hskip : skip s = .ok rest) :
    ∃ blank value, Blank blank ∧ IsValue value ∧ s = blank ++ (value ++ rest) := by
  obtain ⟨blank, value, u, hblank, hvalue, hs, hcloses⟩ := (exists_of_skip_steps _).1 hskip
  cases hcloses
  exact ⟨blank, value, hblank, hvalue, hs⟩

/-! ## Raw text -/

theorem take_sub_length_append (value rest : Bytes) :
    (value ++ rest).take ((value ++ rest).length - rest.length) = value := by
  rw [List.length_append, Nat.add_sub_cancel, List.take_left]

/-- A value's text is taken as it stands. -/
theorem raw_append {blank value rest : Bytes} {text : String} (hblank : Blank blank)
    (hvalue : IsValue value) (htext : value = Text.bytes text) (hrest : Stops rest) :
    raw (blank ++ (value ++ rest)) = .ok (value, rest) := by
  have hskip : skip (value ++ rest) = .ok rest := skip_append blank_nil hvalue hrest
  have hvalid : Text.validLength value = value.length := htext ▸ Text.validLength_bytes text
  unfold raw
  simp only [skipBlank_append hblank, hvalue.skipBlank_append]
  refine bind_eq_ok_iff.2 ⟨rest, hskip, ?_⟩
  rw [take_sub_length_append]
  exact if_pos hvalid

theorem exists_of_raw {s value rest : Bytes} (hraw : raw s = .ok (value, rest)) :
    ∃ blank, Blank blank ∧ IsValue value ∧ s = blank ++ (value ++ rest) := by
  unfold raw at hraw
  obtain ⟨rest', hskip, hnext⟩ := bind_eq_ok_iff.1 hraw
  obtain ⟨blank, hblank, hs⟩ := exists_blank s
  obtain ⟨inner, taken, hinner, htaken, hs'⟩ := exists_of_skip hskip
  have hstart : skipBlank s = taken ++ rest' := by
    rw [← skipBlank_skipBlank, hs', skipBlank_append hinner, htaken.skipBlank_append]
  rw [hstart] at hnext hs
  dsimp only at hnext
  rw [take_sub_length_append] at hnext
  split at hnext
  · obtain ⟨rfl, rfl⟩ := Prod.mk.inj (Except.ok.inj hnext)
    exact ⟨blank, hblank, htaken, hs⟩
  · cases hnext

end MockHttp.Json
