import Mathlib.Logic.Basic
import MockHttp.Proofs.Json.Grammar
import MockHttp.Proofs.Json.Yields
import MockHttp.Proofs.Text.Pieces
/-!
# Strings

A string is read for its text exactly if its content denotes the UTF-8 form of the text, and is
passed over exactly if its escapes are well formed.
-/

namespace MockHttp.Json

/-! ## Escapes -/

theorem shortEscape?_eq_some_iff {e c : UInt8} :
    shortEscape? e = some c ↔ (e, c) ∈ shortEscapes := by
  constructor
  · intro hshort
    unfold shortEscape? at hshort
    repeat' split at hshort
    · obtain rfl := Option.some.inj hshort
      rename_i h
      rcases h with rfl | rfl | rfl <;> decide
    all_goals simp_all [shortEscapes]
  · intro hmem
    simp only [shortEscapes, List.mem_cons, Prod.mk.injEq, List.not_mem_nil, or_false] at hmem
    rcases hmem with ⟨rfl, rfl⟩ | ⟨rfl, rfl⟩ | ⟨rfl, rfl⟩ | ⟨rfl, rfl⟩ | ⟨rfl, rfl⟩ | ⟨rfl, rfl⟩ |
      ⟨rfl, rfl⟩ | ⟨rfl, rfl⟩ <;> rfl

theorem hexUnit_eq_ok_iff {s rest : Bytes} {unit : Nat} :
    hexUnit s = .ok (unit, rest) ↔ ∃ digits, HexUnit digits unit ∧ s = digits ++ rest := by
  constructor
  · intro hunit
    unfold hexUnit at hunit
    split at hunit
    · rename_i a b c d tail
      split at hunit
      · rename_i w x y z ha hb hc hd
        obtain ⟨rfl, rfl⟩ := Prod.mk.inj (Except.ok.inj hunit)
        exact ⟨[a, b, c, d], .mk ha hb hc hd, rfl⟩
      · cases hunit
    · cases hunit
  · rintro ⟨digits, ⟨ha, hb, hc, hd⟩, rfl⟩
    simp [hexUnit, ha, hb, hc, hd]

theorem lowSurrogate_eq_ok_iff {s rest : Bytes} {unit : Nat} :
    lowSurrogate s = .ok (unit, rest) ↔
      ∃ digits, HexUnit digits unit ∧ (0xDC00 ≤ unit ∧ unit ≤ 0xDFFF) ∧
        s = ascii '\\' :: ascii 'u' :: (digits ++ rest) := by
  constructor
  · intro hlow
    unfold lowSurrogate at hlow
    split at hlow
    · cases hlow
    · split at hlow
      · cases hlow
      · rename_i b s hb
        split at hlow
        · cases hlow
        · rename_i u s
          split at hlow
          · cases hlow
          · rename_i hu
            obtain ⟨⟨own, s'⟩, hunit, hnext⟩ := bind_eq_ok_iff.1 hlow
            obtain ⟨digits, hdigits, rfl⟩ := hexUnit_eq_ok_iff.1 hunit
            dsimp only at hnext
            split at hnext
            · rename_i hrange
              obtain ⟨rfl, rfl⟩ := Prod.mk.inj (Except.ok.inj hnext)
              refine ⟨digits, hdigits, by simpa [isLowSurrogate] using hrange, ?_⟩
              rw [not_not.1 hb, not_not.1 hu]
            · cases hnext
  · rintro ⟨digits, hdigits, hrange, rfl⟩
    rw [lowSurrogate, if_neg (by simp)]
    dsimp only
    rw [if_neg (by simp)]
    refine bind_eq_ok_iff.2 ⟨(unit, rest), hexUnit_eq_ok_iff.2 ⟨digits, hdigits, rfl⟩, ?_⟩
    dsimp only
    rw [if_pos (by simpa [isLowSurrogate] using hrange)]
    rfl

theorem escape_eq_ok_iff {s d rest : Bytes} :
    escape s = .ok (d, rest) ↔ ∃ e, Escape e d ∧ s = e ++ rest := by
  constructor
  · intro hescape
    unfold escape at hescape
    split at hescape
    · cases hescape
    · rename_i e s
      split at hescape
      · rename_i c hshort
        obtain ⟨rfl, rfl⟩ := Prod.mk.inj (Except.ok.inj hescape)
        exact ⟨[e], .short (shortEscape?_eq_some_iff.1 hshort), rfl⟩
      · split at hescape
        · cases hescape
        · rename_i hu
          obtain rfl := not_not.1 hu
          obtain ⟨⟨unit, s'⟩, hunit, hnext⟩ := bind_eq_ok_iff.1 hescape
          obtain ⟨digits, hdigits, rfl⟩ := hexUnit_eq_ok_iff.1 hunit
          dsimp only at hnext
          split at hnext
          · cases hnext
          · rename_i hnotLow
            split at hnext
            · rename_i hhigh
              obtain ⟨⟨low, s''⟩, hlow, hreturn⟩ := bind_eq_ok_iff.1 hnext
              obtain ⟨others, hothers, hrange, rfl⟩ := lowSurrogate_eq_ok_iff.1 hlow
              obtain ⟨rfl, rfl⟩ := Prod.mk.inj (Except.ok.inj hreturn)
              exact ⟨_, .pair hdigits (by simpa [isHighSurrogate] using hhigh) hothers hrange,
                by simp⟩
            · rename_i hnotHigh
              obtain ⟨rfl, rfl⟩ := Prod.mk.inj (Except.ok.inj hnext)
              refine ⟨_, .unit hdigits ?_, rfl⟩
              simp only [isLowSurrogate, isHighSurrogate, decide_eq_true_eq] at hnotLow hnotHigh
              omega
  · rintro ⟨e, hescape, rfl⟩
    cases hescape with
    | short hshort => simp [escape, shortEscape?_eq_some_iff.2 hshort]
    | @unit digits unit hdigits hrange =>
        have hunit : hexUnit (digits ++ rest) = .ok (unit, rest) :=
          hexUnit_eq_ok_iff.2 ⟨digits, hdigits, rfl⟩
        refine bind_eq_ok_iff.2 ⟨(unit, rest), hunit, ?_⟩
        have hlow : ¬ isLowSurrogate unit := by
          simp only [isLowSurrogate, decide_eq_true_eq]
          omega
        have hhigh : ¬ isHighSurrogate unit := by
          simp only [isHighSurrogate, decide_eq_true_eq]
          omega
        dsimp only
        rw [if_neg hlow, if_neg hhigh]
        rfl
    | @pair digits others high low hdigits hrange hothers hrange' =>
        have hunit : hexUnit (digits ++ ascii '\\' :: ascii 'u' :: (others ++ rest)) =
            .ok (high, ascii '\\' :: ascii 'u' :: (others ++ rest)) :=
          hexUnit_eq_ok_iff.2 ⟨digits, hdigits, rfl⟩
        rw [List.cons_append, List.append_assoc, List.cons_append, List.cons_append]
        refine bind_eq_ok_iff.2 ⟨_, hunit, ?_⟩
        have hlow : ¬ isLowSurrogate high := by
          simp only [isLowSurrogate, decide_eq_true_eq]
          omega
        dsimp only
        rw [if_neg hlow, if_pos (by simpa [isHighSurrogate] using hrange)]
        exact bind_eq_ok_iff.2 ⟨_, lowSurrogate_eq_ok_iff.2 ⟨others, hothers, hrange', rfl⟩, rfl⟩

theorem skipEscape_eq_ok_iff {s rest : Bytes} :
    skipEscape s = .ok rest ↔ ∃ e, LooseEscape e ∧ s = e ++ rest := by
  constructor
  · intro hskip
    unfold skipEscape at hskip
    split at hskip
    · cases hskip
    · rename_i e s
      split at hskip
      · rename_i hshort
        obtain ⟨c, hc⟩ := Option.isSome_iff_exists.1 hshort
        obtain rfl := Except.ok.inj hskip
        exact ⟨[e], .short (shortEscape?_eq_some_iff.1 hc), rfl⟩
      · split at hskip
        · rename_i hu
          obtain ⟨⟨unit, s'⟩, hunit, hreturn⟩ := bind_eq_ok_iff.1 hskip
          obtain ⟨digits, hdigits, rfl⟩ := hexUnit_eq_ok_iff.1 hunit
          obtain rfl := Except.ok.inj hreturn
          exact ⟨_, .unit hdigits, by rw [hu]; rfl⟩
        · cases hskip
  · rintro ⟨e, hescape, rfl⟩
    cases hescape with
    | short hshort => simp [skipEscape, shortEscape?_eq_some_iff.2 hshort]
    | @unit digits unit hdigits =>
        exact bind_eq_ok_iff.2 ⟨(unit, rest), hexUnit_eq_ok_iff.2 ⟨digits, hdigits, rfl⟩, rfl⟩

theorem Denotes.content {s t : Bytes} (hdenotes : Denotes s t) : Content s := by
  induction hdenotes with
  | nil => exact .nil
  | plain hb _ ih => exact .plain hb ih
  | escape he _ ih =>
      cases he with
      | short hshort => exact .escape (.short hshort) ih
      | unit hdigits => exact .escape (.unit hdigits) ih
      | pair hdigits _ hothers =>
          have hlow := Content.escape (.unit hothers) ih
          rw [List.cons_append, List.append_assoc]
          exact .escape (.unit hdigits) hlow

/-! ## Contents -/

theorem content_append {key t left : Bytes} (hkey : Denotes key t)
    (hleft : key.length < left.length) (rest : Bytes) :
    content left (key ++ ascii '"' :: rest) = .ok (t, rest) := by
  induction hkey generalizing left with
  | nil =>
      cases left with
      | nil => exact absurd hleft (Nat.not_lt_zero _)
      | cons _ left => rw [List.nil_append, content, if_pos rfl]
  | plain hb _ ih =>
      cases left with
      | nil => exact absurd hleft (Nat.not_lt_zero _)
      | cons _ left =>
          rw [List.cons_append, content, if_neg hb.1, if_neg hb.2.1,
            if_neg (by simpa using hb.2.2)]
          exact bind_eq_ok_iff.2 ⟨_, ih (by simpa using hleft), rfl⟩
  | @escape e d s t he _ ih =>
      cases left with
      | nil => exact absurd hleft (Nat.not_lt_zero _)
      | cons _ left =>
          rw [List.cons_append, List.append_assoc, content, if_neg (by decide), if_pos rfl]
          refine bind_eq_ok_iff.2 ⟨_, escape_eq_ok_iff.2 ⟨e, he, rfl⟩, ?_⟩
          refine bind_eq_ok_iff.2 ⟨_, ih ?_, rfl⟩
          simp only [List.length_cons, List.length_append] at hleft
          omega

theorem denotes_of_content {left s t rest : Bytes}
    (hcontent : content left s = .ok (t, rest)) :
    ∃ key, Denotes key t ∧ s = key ++ ascii '"' :: rest := by
  induction left generalizing s t with
  | nil => cases hcontent
  | cons _ left ih =>
      cases s with
      | nil => cases hcontent
      | cons b s =>
          rw [content] at hcontent
          split at hcontent
          · rename_i hquote
            obtain ⟨rfl, rfl⟩ := Prod.mk.inj (Except.ok.inj hcontent)
            exact ⟨[], .nil, by rw [hquote]; rfl⟩
          · rename_i hquote
            split at hcontent
            · rename_i hslash
              obtain ⟨⟨d, s'⟩, hescape, hnext⟩ := bind_eq_ok_iff.1 hcontent
              obtain ⟨e, he, rfl⟩ := escape_eq_ok_iff.1 hescape
              obtain ⟨⟨others, s''⟩, hothers, hreturn⟩ := bind_eq_ok_iff.1 hnext
              obtain ⟨rfl, rfl⟩ := Prod.mk.inj (Except.ok.inj hreturn)
              obtain ⟨key, hkey, rfl⟩ := ih hothers
              exact ⟨_, .escape he hkey, by rw [hslash]; simp⟩
            · rename_i hslash
              split at hcontent
              · cases hcontent
              · rename_i hcontrol
                obtain ⟨⟨others, s'⟩, hothers, hreturn⟩ := bind_eq_ok_iff.1 hcontent
                obtain ⟨rfl, rfl⟩ := Prod.mk.inj (Except.ok.inj hreturn)
                obtain ⟨key, hkey, rfl⟩ := ih hothers
                exact ⟨_, .plain ⟨hquote, hslash, by simpa using hcontrol⟩ hkey, rfl⟩

/-- A string behind its quote is read for the text whose UTF-8 form its content denotes. -/
theorem string_eq_ok_iff {s rest : Bytes} {text : String} :
    string s = .ok (text, rest) ↔
      ∃ key, Denotes key (Text.bytes text) ∧ s = key ++ ascii '"' :: rest := by
  constructor
  · intro hstring
    obtain ⟨⟨denoted, s'⟩, hcontent, hnext⟩ := bind_eq_ok_iff.1 hstring
    obtain ⟨key, hkey, rfl⟩ := denotes_of_content hcontent
    dsimp only at hnext
    split at hnext
    · rename_i own htext
      obtain ⟨rfl, rfl⟩ := Prod.mk.inj (Except.ok.inj hnext)
      exact ⟨key, Text.ofBytes?_eq_some_iff.1 htext ▸ hkey, rfl⟩
    · cases hnext
  · rintro ⟨key, hkey, rfl⟩
    have hlength : key.length < (key ++ ascii '"' :: rest).length := by simp
    have hcontent := content_append hkey hlength rest
    refine bind_eq_ok_iff.2 ⟨_, hcontent, ?_⟩
    dsimp only
    rw [Text.ofBytes?_eq_some_iff.2 rfl]
    rfl

theorem skipContent_append {key left : Bytes} (hkey : Content key)
    (hleft : key.length < left.length) (rest : Bytes) :
    skipContent left (key ++ ascii '"' :: rest) = .ok rest := by
  induction hkey generalizing left with
  | nil =>
      cases left with
      | nil => exact absurd hleft (Nat.not_lt_zero _)
      | cons _ left => rw [List.nil_append, skipContent, if_pos rfl]
  | plain hb _ ih =>
      cases left with
      | nil => exact absurd hleft (Nat.not_lt_zero _)
      | cons _ left =>
          rw [List.cons_append, skipContent, if_neg hb.1, if_neg hb.2.1,
            if_neg (by simpa using hb.2.2)]
          exact ih (by simpa using hleft)
  | @escape e s he _ ih =>
      cases left with
      | nil => exact absurd hleft (Nat.not_lt_zero _)
      | cons _ left =>
          rw [List.cons_append, List.append_assoc, skipContent, if_neg (by decide), if_pos rfl]
          refine bind_eq_ok_iff.2 ⟨_, skipEscape_eq_ok_iff.2 ⟨e, he, rfl⟩, ih ?_⟩
          simp only [List.length_cons, List.length_append] at hleft
          omega

theorem content_of_skipContent {left s rest : Bytes}
    (hskip : skipContent left s = .ok rest) :
    ∃ key, Content key ∧ s = key ++ ascii '"' :: rest := by
  induction left generalizing s with
  | nil => cases hskip
  | cons _ left ih =>
      cases s with
      | nil => cases hskip
      | cons b s =>
          rw [skipContent] at hskip
          split at hskip
          · rename_i hquote
            obtain rfl := Except.ok.inj hskip
            exact ⟨[], .nil, by rw [hquote]; rfl⟩
          · rename_i hquote
            split at hskip
            · rename_i hslash
              obtain ⟨s', hescape, hnext⟩ := bind_eq_ok_iff.1 hskip
              obtain ⟨e, he, rfl⟩ := skipEscape_eq_ok_iff.1 hescape
              obtain ⟨key, hkey, rfl⟩ := ih hnext
              exact ⟨_, .escape he hkey, by rw [hslash]; simp⟩
            · rename_i hslash
              split at hskip
              · cases hskip
              · rename_i hcontrol
                obtain ⟨key, hkey, rfl⟩ := ih hskip
                exact ⟨_, .plain ⟨hquote, hslash, by simpa using hcontrol⟩ hkey, rfl⟩

/-- A string behind its quote is passed over if its escapes are well formed. -/
theorem skipString_eq_ok_iff {s rest : Bytes} :
    skipString s = .ok rest ↔ ∃ key, Content key ∧ s = key ++ ascii '"' :: rest := by
  constructor
  · exact content_of_skipContent
  · rintro ⟨key, hkey, rfl⟩
    exact skipContent_append hkey (by simp) rest

end MockHttp.Json
