import MockHttp.Proofs.Json.Parts
/-!
# What can be written

Some string denotes the bytes one likes, some digits have the value, and some list or object has the
values for its elements or, under any names, for its members.
-/

namespace MockHttp.Json

/-! ## Strings -/

/-- A byte that does not stand for itself has an escape. -/
theorem exists_escape {b : UInt8} (hb : ¬ Plain b) : ∃ e, Escape e [b] := by
  by_cases hquote : b = ascii '"'
  · subst hquote
    exact ⟨[ascii '"'], .short (by decide)⟩
  by_cases hslash : b = ascii '\\'
  · subst hslash
    exact ⟨[ascii '\\'], .short (by decide)⟩
  have hcontrol : b.toNat < 32 :=
    Nat.lt_of_not_le fun hle => hb ⟨hquote, hslash, UInt8.le_iff_toNat_le.2 hle⟩
  let digit (n : Nat) : UInt8 := UInt8.ofNat (if n < 10 then 48 + n else 87 + n)
  have hdigits : ∀ n < 32, hexDigit? (digit (n / 16)) = some (n / 16) ∧
      hexDigit? (digit (n % 16)) = some (n % 16) ∧
        String.utf8EncodeChar (Char.ofNat n) = [UInt8.ofNat n] := by decide +kernel
  obtain ⟨hhigh, hlow, hencoded⟩ := hdigits b.toNat hcontrol
  have hzero : hexDigit? (ascii '0') = some 0 := by decide
  have hunit := HexUnit.mk hzero hzero hhigh hlow
  rw [show ((0 * 16 + 0) * 16 + b.toNat / 16) * 16 + b.toNat % 16 = b.toNat by omega] at hunit
  have hescape := Escape.unit hunit (by omega)
  rw [hencoded, UInt8.ofNat_toNat] at hescape
  exact ⟨_, hescape⟩

theorem exists_denotes (s : Bytes) : ∃ key, Denotes key s := by
  induction s with
  | nil => exact ⟨[], .nil⟩
  | cons b s ih =>
      obtain ⟨key, hkey⟩ := ih
      by_cases hb : Plain b
      · exact ⟨_, .plain hb hkey⟩
      · obtain ⟨e, he⟩ := exists_escape hb
        exact ⟨_, .escape he hkey⟩

theorem exists_isString (text : String) : ∃ literal, IsString text literal := by
  obtain ⟨key, hkey⟩ := exists_denotes (Text.bytes text)
  exact ⟨_, .mk hkey⟩

/-! ## Numbers -/

theorem decimal_concat (digits : Bytes) (d : UInt8) :
    decimal (digits ++ [d]) = decimal digits * 10 + (d.toNat - 48) := by
  rw [decimal, decimal, List.foldl_append, List.foldl_cons, List.foldl_nil]

theorem exists_whole (n : Nat) : ∃ digits, Whole digits ∧ decimal digits = n := by
  have hdigit : ∀ d < 10, isDigit (UInt8.ofNat (48 + d)) = true ∧
      (UInt8.ofNat (48 + d)).toNat - 48 = d := by decide
  induction n using Nat.strong_induction_on with
  | _ n ih =>
      by_cases hn : n < 10
      · obtain ⟨hisDigit, hvalue⟩ := hdigit n hn
        refine ⟨[UInt8.ofNat (48 + n)], ⟨⟨by simp, by simpa using hisDigit⟩, ?_⟩, ?_⟩
        · intro hhead
          rw [Option.some.inj hhead]
        · rw [← List.nil_append [_], decimal_concat, hvalue]
          exact Nat.zero_add n
      · obtain ⟨digits, ⟨⟨hne, hdigits⟩, hzero⟩, hdecimal⟩ := ih (n / 10) (by omega)
        obtain ⟨hisDigit, hvalue⟩ := hdigit (n % 10) (Nat.mod_lt n (by decide))
        refine ⟨digits ++ [UInt8.ofNat (48 + n % 10)], ⟨⟨by simp, ?_⟩, ?_⟩, ?_⟩
        · intro b hb
          rcases List.mem_append.1 hb with hb | hb
          · exact hdigits b hb
          · rw [List.mem_singleton.1 hb]
            exact hisDigit
        · -- Digits that start with a zero are that zero, and the number in front is none.
          intro hhead
          rw [List.head?_append_of_ne_nil _ hne] at hhead
          rw [hzero hhead] at hdecimal
          have hnone : decimal [ascii '0'] = 0 := by decide
          omega
        · rw [decimal_concat, hdecimal, hvalue]
          omega

/-! ## Lists and objects -/

theorem exists_row {α : Type} {Part : α → Bytes → Prop} (bracket : Bracket) (isFirst : Bool)
    {parts : List α} (hparts : ∀ a ∈ parts, ∃ part, Part a part) :
    ∃ row, Row Part bracket isFirst parts row := by
  induction parts generalizing isFirst with
  | nil => exact ⟨_, .close blank_nil⟩
  | cons a parts ih =>
      obtain ⟨⟨part, hpart⟩, hrest⟩ := List.forall_mem_cons.1 hparts
      obtain ⟨row, hrow⟩ := ih false hrest
      cases isFirst with
      | true => exact ⟨_, .part .first hpart hrow⟩
      | false => exact ⟨_, .part (.comma blank_nil) hpart hrow⟩

theorem exists_isList {elements : List Bytes} (hvalues : ∀ value ∈ elements, IsValue value) :
    ∃ list, IsList elements list := by
  have helements : ∀ value ∈ elements, ∃ part, Element value part := fun value hvalue =>
    ⟨_, .mk blank_nil (hvalues value hvalue)⟩
  obtain ⟨row, hrow⟩ := exists_row .list true helements
  exact ⟨_, .mk hrow⟩

theorem exists_isObject {members : List (String × Bytes)}
    (hvalues : ∀ member ∈ members, IsValue member.2) : ∃ object, IsObject members object := by
  have hmembers : ∀ member ∈ members, ∃ part, Member member part := by
    rintro ⟨name, value⟩ hmember
    obtain ⟨key, hkey⟩ := exists_denotes (Text.bytes name)
    exact ⟨_, .mk blank_nil hkey blank_nil blank_nil (hvalues _ hmember)⟩
  obtain ⟨row, hrow⟩ := exists_row .object true hmembers
  exact ⟨_, .mk hrow⟩

end MockHttp.Json
