import Mathlib.Logic.Basic
import MockHttp.Proofs.Json.Grammar
import MockHttp.Proofs.Json.Yields
import MockHttp.Proofs.Text.Pieces
/-!
# Numbers

A number is passed over as far as its digits, its point and its exponent go.  A natural number is
read for the value of its digits, and for nothing that has a sign, a point or an exponent.
-/

namespace MockHttp.Json

/-! ## Runs of digits -/

theorem digits_takeWhile {b : UInt8} (hb : isDigit b = true) (s : Bytes) :
    Digits (b :: s.takeWhile isDigit) := by
  refine ⟨List.cons_ne_nil _ _, fun c hc => ?_⟩
  rcases List.mem_cons.1 hc with rfl | hc
  · exact hb
  · exact List.all_eq_true.1 List.all_takeWhile c hc

theorem Digits.exists_cons {s : Bytes} (hs : Digits s) :
    ∃ b t, s = b :: t ∧ isDigit b = true ∧ ∀ c ∈ t, isDigit c = true := by
  cases s with
  | nil => exact absurd rfl hs.1
  | cons b t => exact ⟨b, t, rfl, hs.2 b List.mem_cons_self, fun c hc => hs.2 c (.tail b hc)⟩

theorem whole_zero : Whole [ascii '0'] :=
  ⟨⟨List.cons_ne_nil _ _, List.forall_mem_singleton.2 (by decide)⟩, fun _ => rfl⟩

theorem whole_cons {b : UInt8} (hzero : b ≠ ascii '0') {s : Bytes} (hdigits : Digits (b :: s)) :
    Whole (b :: s) :=
  ⟨hdigits, fun h => absurd (Option.some.inj h) hzero⟩

/-! ## Numbers that are passed over -/

theorem skipExponent_append {sign digits rest : Bytes}
    (hsign : sign ∈ [[], [ascii '+'], [ascii '-']]) (hdigits : Digits digits)
    (hrest : ∀ b ∈ rest.head?, isDigit b = false) :
    skipExponent (sign ++ (digits ++ rest)) = .ok rest := by
  obtain ⟨b, t, rfl, hb, ht⟩ := hdigits.exists_cons
  have hsigned : (signed (sign ++ (b :: t ++ rest))).2 = b :: (t ++ rest) := by
    simp only [List.mem_cons, List.not_mem_nil, or_false] at hsign
    rcases hsign with rfl | rfl | rfl
    · have hplus : b ≠ ascii '+' := by rintro rfl; exact absurd hb (by decide)
      have hminus : b ≠ ascii '-' := by rintro rfl; exact absurd hb (by decide)
      simp [signed, hplus, hminus]
    · simp [signed]
    · rfl
  rw [skipExponent, hsigned]
  dsimp only
  rw [if_pos hb, Text.dropWhile_append_stop ht hrest]

theorem exists_of_skipExponent {s rest : Bytes} (hskip : skipExponent s = .ok rest) :
    ∃ sign digits, sign ∈ [[], [ascii '+'], [ascii '-']] ∧ Digits digits ∧
      s = sign ++ (digits ++ rest) := by
  obtain ⟨sign, hsign, hs⟩ : ∃ sign, sign ∈ [[], [ascii '+'], [ascii '-']] ∧
      s = sign ++ (signed s).2 := by
    cases s with
    | nil => exact ⟨[], by simp, rfl⟩
    | cons b s =>
        rw [signed]
        split
        · rename_i h
          exact ⟨[ascii '+'], by simp, by rw [h]; rfl⟩
        · split
          · rename_i h
            exact ⟨[ascii '-'], by simp, by rw [h]; rfl⟩
          · exact ⟨[], by simp, rfl⟩
  rw [skipExponent] at hskip
  split at hskip
  · cases hskip
  · rename_i b t ht
    split at hskip
    · rename_i hb
      obtain rfl := Except.ok.inj hskip
      refine ⟨sign, b :: t.takeWhile isDigit, hsign, digits_takeWhile hb t, ?_⟩
      rw [List.cons_append, List.takeWhile_append_dropWhile, ← ht]
      exact hs
    · cases hskip

theorem skipBehindDigits_append {exponent rest : Bytes} (hexponent : Exponent exponent)
    (hrest : Stops rest) : skipBehindDigits (exponent ++ rest) = .ok rest := by
  cases hexponent with
  | absent =>
      cases rest with
      | nil => rfl
      | cons b rest => rw [List.nil_append, skipBehindDigits, if_neg (by simp [hrest b rfl])]
  | @present mark sign digits hmark hsign hdigits =>
      have hmark' : isExponentMark mark = true := by
        simpa [isExponentMark] using hmark
      rw [List.cons_append, List.append_assoc, skipBehindDigits, if_pos hmark']
      exact skipExponent_append hsign hdigits fun b hb => (hrest b hb).1

theorem exists_of_skipBehindDigits {s rest : Bytes} (hskip : skipBehindDigits s = .ok rest) :
    ∃ exponent, Exponent exponent ∧ s = exponent ++ rest := by
  unfold skipBehindDigits at hskip
  split at hskip
  · obtain rfl := Except.ok.inj hskip
    exact ⟨[], .absent, rfl⟩
  · rename_i b s
    split at hskip
    · rename_i hmark
      obtain ⟨sign, digits, hsign, hdigits, rfl⟩ := exists_of_skipExponent hskip
      exact ⟨_, .present (by simpa [isExponentMark] using hmark) hsign hdigits, by simp⟩
    · obtain rfl := Except.ok.inj hskip
      exact ⟨[], .absent, rfl⟩

theorem head_exponent_append {exponent rest : Bytes} (hexponent : Exponent exponent)
    (hrest : Stops rest) :
    ∀ b ∈ (exponent ++ rest).head?, isDigit b = false ∧ b ≠ ascii '.' := by
  intro b hb
  cases hexponent with
  | absent => exact ⟨(hrest b hb).1, (hrest b hb).2.1⟩
  | present hmark _ _ =>
      obtain rfl := Option.some.inj hb
      simp only [List.mem_cons, List.not_mem_nil, or_false] at hmark
      rcases hmark with rfl | rfl <;> exact ⟨by decide, by decide⟩

theorem skipBehindWhole_append {fraction exponent rest : Bytes} (hfraction : Fraction fraction)
    (hexponent : Exponent exponent) (hrest : Stops rest) :
    skipBehindWhole (fraction ++ (exponent ++ rest)) = .ok rest := by
  have hnext := head_exponent_append hexponent hrest
  cases hfraction with
  | absent =>
      rw [List.nil_append, ← skipBehindDigits_append hexponent hrest]
      cases hs : exponent ++ rest with
      | nil => rfl
      | cons b s =>
          rw [hs] at hnext
          rw [skipBehindWhole, if_neg (hnext b rfl).2]
  | present hdigits =>
      have hdrop := Text.dropWhile_append_stop hdigits.2 fun b hb => (hnext b hb).1
      obtain ⟨b, t, rfl, hb, -⟩ := hdigits.exists_cons
      rw [List.cons_append, skipBehindWhole, if_pos rfl, hdrop]
      dsimp only
      rw [if_pos (show startsWithDigit (b :: t ++ _) = true from hb)]
      exact skipBehindDigits_append hexponent hrest

theorem exists_of_skipBehindWhole {s rest : Bytes} (hskip : skipBehindWhole s = .ok rest) :
    ∃ fraction exponent, Fraction fraction ∧ Exponent exponent ∧
      s = fraction ++ (exponent ++ rest) := by
  unfold skipBehindWhole at hskip
  split at hskip
  · obtain rfl := Except.ok.inj hskip
    exact ⟨[], [], .absent, .absent, rfl⟩
  · rename_i b s
    split at hskip
    · rename_i hpoint
      dsimp only at hskip
      split at hskip
      · rename_i hdigit
        obtain ⟨exponent, hexponent, hs⟩ := exists_of_skipBehindDigits hskip
        cases s with
        | nil => cases hdigit
        | cons d s =>
            refine ⟨_, exponent, .present (digits_takeWhile hdigit s), hexponent, ?_⟩
            have hd : isDigit d = true := hdigit
            rw [List.dropWhile_cons_of_pos hd] at hs
            rw [← hs, hpoint, List.cons_append, List.cons_append,
              List.takeWhile_append_dropWhile]
      · cases hskip
    · obtain ⟨exponent, hexponent, hs⟩ := exists_of_skipBehindDigits hskip
      exact ⟨[], exponent, .absent, hexponent, hs⟩

theorem skipNumber_append {s rest : Bytes} (hs : Unsigned s) (hrest : Stops rest) :
    skipNumber (s ++ rest) = .ok rest := by
  obtain ⟨⟨hdigits, hzero⟩, hfraction, hexponent⟩ := hs
  rename_i whole fraction exponent
  have hbehind := skipBehindWhole_append hfraction hexponent hrest
  have hnext : ∀ b ∈ (fraction ++ (exponent ++ rest)).head?, isDigit b = false := by
    intro b hb
    cases hfraction with
    | absent => exact (head_exponent_append hexponent hrest b hb).1
    | present _ =>
        obtain rfl := Option.some.inj hb
        decide
  obtain ⟨b, t, rfl, hb, ht⟩ := hdigits.exists_cons
  rw [List.append_assoc, List.append_assoc, List.cons_append, skipNumber]
  split
  · rename_i h
    obtain rfl : t = [] := (List.cons.inj (hzero (by rw [h]; rfl))).2
    have hstart : startsWithDigit (fraction ++ (exponent ++ rest)) ≠ true := by
      cases hs : fraction ++ (exponent ++ rest) with
      | nil => simp [startsWithDigit]
      | cons c s => simp [startsWithDigit, hnext c (by rw [hs]; rfl)]
    rw [List.nil_append, if_neg hstart]
    exact hbehind
  · rw [Text.dropWhile_append_stop ht hnext]
    exact hbehind

theorem exists_of_skipNumber {s rest : Bytes} (hskip : skipNumber s = .ok rest) :
    ∃ number, Unsigned number ∧ s = number ++ rest := by
  unfold skipNumber at hskip
  split at hskip
  · cases hskip
  · rename_i b s
    split at hskip
    · rename_i hzero
      split at hskip
      · cases hskip
      · obtain ⟨fraction, exponent, hfraction, hexponent, rfl⟩ := exists_of_skipBehindWhole hskip
        exact ⟨_, .mk whole_zero hfraction hexponent, by rw [hzero]; simp⟩
    · rename_i hzero
      split at hskip
      · rename_i hb
        obtain ⟨fraction, exponent, hfraction, hexponent, hs⟩ := exists_of_skipBehindWhole hskip
        refine ⟨_, .mk (whole_cons hzero (digits_takeWhile hb s)) hfraction hexponent, ?_⟩
        rw [List.append_assoc, List.append_assoc, ← hs, List.cons_append,
          List.takeWhile_append_dropWhile]
      · cases hskip

/-! ## Natural numbers -/

theorem le_foldl_decimal (value : Nat) (digits : Bytes) :
    value ≤ digits.foldl (fun value d => value * 10 + (d.toNat - 48)) value := by
  induction digits generalizing value with
  | nil => exact Nat.le_refl value
  | cons d digits ih =>
      have h := ih (value * 10 + (d.toNat - 48))
      rw [List.foldl_cons]
      omega

/-- Digits whose value fits a word are taken to the last one. -/
theorem wholePart_eq {digits : Bytes} (hword : decimal digits ≤ maxWord) :
    wholePart digits = (decimal digits, 0) := by
  have hfold (value : Nat) (digits : Bytes)
      (hword : digits.foldl (fun value d => value * 10 + (d.toNat - 48)) value ≤ maxWord) :
      digits.foldl (fun (read : Nat × Nat) d =>
          let next := read.1 * 10 + digitValue d
          if read.2 = 0 ∧ next ≤ maxWord then (next, 0) else (read.1, read.2 + 1)) (value, 0) =
        (digits.foldl (fun value d => value * 10 + (d.toNat - 48)) value, 0) := by
    induction digits generalizing value with
    | nil => rfl
    | cons d digits ih =>
        rw [List.foldl_cons] at hword ⊢
        have hnext : value * 10 + (d.toNat - 48) ≤ maxWord :=
          Nat.le_trans (le_foldl_decimal _ digits) hword
        refine Eq.trans ?_ (ih _ hword)
        exact congrArg (digits.foldl _) (if_pos ⟨rfl, hnext⟩)
  exact hfold 0 digits hword

theorem behindWhole_of_stops {rest : Bytes} (hrest : Stops rest) (value : Nat) :
    behindWhole false value 0 rest = .ok (.natural value, rest) := by
  cases rest with
  | nil => rfl
  | cons b rest =>
      obtain ⟨-, hpoint, hmark⟩ := hrest b rfl
      rw [behindWhole, if_neg hpoint, if_neg (by simp [hmark])]
      rfl

theorem number_append {whole rest : Bytes} (hwhole : Whole whole)
    (hword : decimal whole ≤ maxWord) (hrest : Stops rest) :
    number false (whole ++ rest) = .ok (.natural (decimal whole), rest) := by
  obtain ⟨hdigits, hzero⟩ := hwhole
  have hnext : ∀ b ∈ rest.head?, isDigit b = false := fun b hb => (hrest b hb).1
  obtain ⟨b, t, rfl, hb, ht⟩ := hdigits.exists_cons
  rw [List.cons_append, number]
  split
  · rename_i h
    obtain rfl : t = [] := (List.cons.inj (hzero (by rw [h]; rfl))).2
    have hstart : startsWithDigit rest ≠ true := by
      cases rest with
      | nil => simp [startsWithDigit]
      | cons c s => simp [startsWithDigit, hnext c rfl]
    rw [List.nil_append, if_neg hstart, h]
    exact behindWhole_of_stops hrest 0
  · rw [Text.takeWhile_append_stop ht hnext, Text.dropWhile_append_stop ht hnext,
      wholePart_eq hword]
    exact behindWhole_of_stops hrest _

theorem not_natural_of_scaledNumber {negative : Bool} {digits value : Nat} {exponent : Int}
    {s rest : Bytes} : scaledNumber negative digits exponent s ≠ .ok (.natural value, rest) := by
  unfold scaledNumber
  split <;> simp

theorem not_natural_of_exponentPart {negative : Bool} {digits value : Nat} {exponent : Int}
    {s rest : Bytes} : exponentPart negative digits exponent s ≠ .ok (.natural value, rest) := by
  unfold exponentPart
  dsimp only
  split
  · simp
  · split
    · split
      · exact not_natural_of_scaledNumber
      · split <;> simp
    · simp

theorem not_natural_of_pointPart {negative : Bool} {digits dropped value : Nat} {s rest : Bytes} :
    pointPart negative digits dropped s ≠ .ok (.natural value, rest) := by
  unfold pointPart
  dsimp only
  split
  · simp
  · split
    · split
      · exact not_natural_of_exponentPart
      · exact not_natural_of_scaledNumber
    · exact not_natural_of_scaledNumber

theorem eq_of_wholeNumber {negative : Bool} {digits dropped value : Nat} {s rest : Bytes}
    (hnumber : wholeNumber negative digits dropped s = .ok (.natural value, rest)) :
    negative = false ∧ s = rest := by
  unfold wholeNumber at hnumber
  split at hnumber
  · exact absurd hnumber not_natural_of_scaledNumber
  · cases negative with
    | false => exact ⟨rfl, (Prod.mk.inj (Except.ok.inj hnumber)).2⟩
    | true =>
        rw [if_neg (by simp)] at hnumber
        split at hnumber <;> cases hnumber

theorem eq_of_behindWhole {negative : Bool} {digits dropped value : Nat} {s rest : Bytes}
    (hnumber : behindWhole negative digits dropped s = .ok (.natural value, rest)) :
    negative = false ∧ s = rest := by
  unfold behindWhole at hnumber
  split at hnumber
  · exact eq_of_wholeNumber hnumber
  · split at hnumber
    · exact absurd hnumber not_natural_of_pointPart
    · split at hnumber
      · exact absurd hnumber not_natural_of_exponentPart
      · exact eq_of_wholeNumber hnumber

theorem exists_of_number {negative : Bool} {s rest : Bytes} {value : Nat}
    (hnumber : number negative s = .ok (.natural value, rest)) :
    negative = false ∧ ∃ whole, Whole whole ∧ s = whole ++ rest := by
  unfold number at hnumber
  split at hnumber
  · cases hnumber
  · rename_i b s
    split at hnumber
    · rename_i hzero
      split at hnumber
      · cases hnumber
      · obtain ⟨hnegative, rfl⟩ := eq_of_behindWhole hnumber
        exact ⟨hnegative, [b], hzero ▸ whole_zero, rfl⟩
    · rename_i hzero
      split at hnumber
      · rename_i hb
        obtain ⟨hnegative, rfl⟩ := eq_of_behindWhole hnumber
        refine ⟨hnegative, _, whole_cons hzero (digits_takeWhile hb s), ?_⟩
        rw [List.cons_append, List.takeWhile_append_dropWhile]
      · cases hnumber

end MockHttp.Json
