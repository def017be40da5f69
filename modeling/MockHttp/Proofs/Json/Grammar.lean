import MockHttp.Json.Structure
/-!
# JSON as it is written

Which bytes are a value, and which parts a list or an object has, said without a reader.  A value
has no blanks around it; the blanks between its tokens belong to it.
-/

namespace MockHttp.Json

/-- Nothing but blanks. -/
def Blank (s : Bytes) : Prop :=
  ∀ b ∈ s, isBlank b = true

instance (s : Bytes) : Decidable (Blank s) :=
  List.decidableBAll _ s

/-! ## Numbers -/

/-- Digits, one at least. -/
def Digits (s : Bytes) : Prop :=
  s ≠ [] ∧ ∀ b ∈ s, isDigit b = true

/-- Digits that start with a zero only if there is no other. -/
def Whole (s : Bytes) : Prop :=
  Digits s ∧ (s.head? = some (ascii '0') → s = [ascii '0'])

/-- A point with digits behind it, or nothing. -/
inductive Fraction : Bytes → Prop where
  | absent : Fraction []
  | present {digits : Bytes} : Digits digits → Fraction (ascii '.' :: digits)

/-- A letter with digits behind it and perhaps a sign between them, or nothing. -/
inductive Exponent : Bytes → Prop where
  | absent : Exponent []
  | present {mark : UInt8} {sign digits : Bytes} : mark ∈ [ascii 'e', ascii 'E'] →
      sign ∈ [[], [ascii '+'], [ascii '-']] → Digits digits → Exponent (mark :: (sign ++ digits))

/-- A number without its sign. -/
inductive Unsigned : Bytes → Prop where
  | mk {whole fraction exponent : Bytes} : Whole whole → Fraction fraction → Exponent exponent →
      Unsigned (whole ++ (fraction ++ exponent))

/-- The value of digits, the last of which counts once. -/
def decimal (digits : Bytes) : Nat :=
  digits.foldl (fun value d => value * 10 + (d.toNat - 48)) 0

/-- Nothing of a number comes next, so that a number in front ends there. -/
def Stops (s : Bytes) : Prop :=
  ∀ b ∈ s.head?, isDigit b = false ∧ b ≠ ascii '.' ∧ isExponentMark b = false

/-! ## Strings -/

/-- The letters of one-letter escapes, each with the byte it stands for. -/
def shortEscapes : List (UInt8 × UInt8) :=
  [(ascii '"', 34), (ascii '\\', 92), (ascii '/', 47), (ascii 'b', 8), (ascii 'f', 12),
    (ascii 'n', 10), (ascii 'r', 13), (ascii 't', 9)]

/-- Four hexadecimal digits and the UTF-16 unit they stand for. -/
inductive HexUnit : Bytes → Nat → Prop where
  | mk {a b c d : UInt8} {w x y z : Nat} : hexDigit? a = some w → hexDigit? b = some x →
      hexDigit? c = some y → hexDigit? d = some z →
        HexUnit [a, b, c, d] (((w * 16 + x) * 16 + y) * 16 + z)

/-- A byte that stands for itself in a string. -/
def Plain (b : UInt8) : Prop :=
  b ≠ ascii '"' ∧ b ≠ ascii '\\' ∧ 32 ≤ b

instance (b : UInt8) : Decidable (Plain b) :=
  inferInstanceAs (Decidable (b ≠ ascii '"' ∧ b ≠ ascii '\\' ∧ 32 ≤ b))

/-- What follows the backslash of an escape, and the bytes that the escape denotes: a UTF-16 unit by
itself, or two that are a surrogate pair, denote the UTF-8 form of a code point. -/
inductive Escape : Bytes → Bytes → Prop where
  | short {e c : UInt8} : (e, c) ∈ shortEscapes → Escape [e] [c]
  | unit {digits : Bytes} {unit : Nat} : HexUnit digits unit →
      ¬ (0xD800 ≤ unit ∧ unit ≤ 0xDFFF) →
        Escape (ascii 'u' :: digits) (String.utf8EncodeChar (Char.ofNat unit))
  | pair {digits others : Bytes} {high low : Nat} : HexUnit digits high →
      0xD800 ≤ high ∧ high ≤ 0xDBFF → HexUnit others low → 0xDC00 ≤ low ∧ low ≤ 0xDFFF →
        Escape (ascii 'u' :: (digits ++ ascii '\\' :: ascii 'u' :: others))
          (String.utf8EncodeChar
            (Char.ofNat ((high - 0xD800) * 0x400 + (low - 0xDC00) + 0x10000)))

/-- What stands between the quotes of a string, and the bytes it denotes. -/
inductive Denotes : Bytes → Bytes → Prop where
  | nil : Denotes [] []
  | plain {b : UInt8} {s t : Bytes} : Plain b → Denotes s t → Denotes (b :: s) (b :: t)
  | escape {e d s t : Bytes} : Escape e d → Denotes s t →
      Denotes (ascii '\\' :: (e ++ s)) (d ++ t)

/-- What may follow the backslash of an escape, whether or not the escape denotes anything. -/
inductive LooseEscape : Bytes → Prop where
  | short {e c : UInt8} : (e, c) ∈ shortEscapes → LooseEscape [e]
  | unit {digits : Bytes} {unit : Nat} : HexUnit digits unit → LooseEscape (ascii 'u' :: digits)

/-- What may stand between the quotes of a string, whether or not it denotes anything. -/
inductive Content : Bytes → Prop where
  | nil : Content []
  | plain {b : UInt8} {s : Bytes} : Plain b → Content s → Content (b :: s)
  | escape {e s : Bytes} : LooseEscape e → Content s → Content (ascii '\\' :: (e ++ s))

/-! ## Values -/

/-- The byte that opens a bracket. -/
def Bracket.opening : Bracket → UInt8
  | .list => ascii '['
  | .object => ascii '\x7b'

/-- What stands in front of a value in a bracket: blanks, and in an object a key with its colon. -/
inductive Lead : Bracket → Bytes → Prop where
  | list {s : Bytes} : Blank s → Lead .list s
  | object {before key behind gap : Bytes} : Blank before → Content key → Blank behind →
      Blank gap →
        Lead .object (before ++ ascii '"' :: (key ++ ascii '"' :: (behind ++ ascii ':' :: gap)))

/-- A word, a number or a string. -/
inductive IsScalar : Bytes → Prop where
  | null : IsScalar (['n', 'u', 'l', 'l'].map ascii)
  | true : IsScalar (['t', 'r', 'u', 'e'].map ascii)
  | false : IsScalar (['f', 'a', 'l', 's', 'e'].map ascii)
  | unsigned {s : Bytes} : Unsigned s → IsScalar s
  | minus {s : Bytes} : Unsigned s → IsScalar (ascii '-' :: s)
  | string {s : Bytes} : Content s → IsScalar (ascii '"' :: (s ++ [ascii '"']))

mutual

/-- A whole value. -/
inductive IsValue : Bytes → Prop where
  | scalar {s : Bytes} : IsScalar s → IsValue s
  | hollow {s : Bytes} (bracket : Bracket) : Blank s →
      IsValue (bracket.opening :: (s ++ [bracket.closing]))
  | filled {lead value rest : Bytes} (bracket : Bracket) : Lead bracket lead → IsValue value →
      IsRest bracket rest → IsValue (bracket.opening :: (lead ++ (value ++ rest)))

/-- What stands in a bracket behind a value, up to and with its end. -/
inductive IsRest : Bracket → Bytes → Prop where
  | close {s : Bytes} (bracket : Bracket) : Blank s → IsRest bracket (s ++ [bracket.closing])
  | comma {s lead value rest : Bytes} (bracket : Bracket) : Blank s → Lead bracket lead →
      IsValue value → IsRest bracket rest →
        IsRest bracket (s ++ ascii ',' :: (lead ++ (value ++ rest)))

end

/-! ## The parts of lists and objects -/

/-- What stands between two parts of a list or an object; in front of the first there is nothing. -/
inductive Separator : Bool → Bytes → Prop where
  | first : Separator true []
  | comma {s : Bytes} : Blank s → Separator false (s ++ [ascii ','])

/-- Parts with commas between them, up to and with the end of a bracket; the first of them may be
read already. -/
inductive Row {α : Type} (Part : α → Bytes → Prop) (bracket : Bracket) :
    Bool → List α → Bytes → Prop where
  | close {isFirst : Bool} {s : Bytes} : Blank s →
      Row Part bracket isFirst [] (s ++ [bracket.closing])
  | part {isFirst : Bool} {a : α} {as : List α} {separator part rest : Bytes} :
      Separator isFirst separator → Part a part → Row Part bracket false as rest →
        Row Part bracket isFirst (a :: as) (separator ++ (part ++ rest))

/-- An element of a list, with the blanks in front of it. -/
inductive Element : Bytes → Bytes → Prop where
  | mk {blank value : Bytes} : Blank blank → IsValue value → Element value (blank ++ value)

/-- A member of an object by its name and its value, with the blanks in front of it. -/
inductive Member : String × Bytes → Bytes → Prop where
  | mk {before key behind gap value : Bytes} {name : String} : Blank before →
      Denotes key (Text.bytes name) → Blank behind → Blank gap → IsValue value →
        Member (name, value)
          (before ++ ascii '"' :: (key ++ ascii '"' :: (behind ++ ascii ':' :: (gap ++ value))))

/-- The list of some values. -/
inductive IsList : List Bytes → Bytes → Prop where
  | mk {elements : List Bytes} {row : Bytes} : Row Element .list true elements row →
      IsList elements (ascii '[' :: row)

/-- The object of some members, in the order in which they are written. -/
inductive IsObject : List (String × Bytes) → Bytes → Prop where
  | mk {members : List (String × Bytes)} {row : Bytes} :
      Row Member .object true members row → IsObject members (ascii '\x7b' :: row)

/-- The values of the members with a name, in the order in which they are written. -/
def valuesOf (name : String) (members : List (String × Bytes)) : List Bytes :=
  (members.filter fun member => member.1 = name).map Prod.snd

/-- The string of a text. -/
inductive IsString : String → Bytes → Prop where
  | mk {key : Bytes} {text : String} : Denotes key (Text.bytes text) →
      IsString text (ascii '"' :: (key ++ [ascii '"']))

/-! ## Blanks -/

theorem blank_nil : Blank [] := by
  simp [Blank]

theorem Blank.append {s t : Bytes} (hs : Blank s) (ht : Blank t) : Blank (s ++ t) := by
  intro b hb
  rcases List.mem_append.1 hb with h | h
  · exact hs b h
  · exact ht b h

theorem skipBlank_append {blank : Bytes} (hblank : Blank blank) (s : Bytes) :
    skipBlank (blank ++ s) = skipBlank s :=
  List.dropWhile_append_of_pos hblank

theorem skipBlank_cons {b : UInt8} (hb : isBlank b = false) (s : Bytes) :
    skipBlank (b :: s) = b :: s := by
  rw [skipBlank, List.dropWhile_cons_of_neg (by simp [hb])]

theorem exists_blank (s : Bytes) : ∃ blank, Blank blank ∧ s = blank ++ skipBlank s := by
  refine ⟨s.takeWhile isBlank, ?_, List.takeWhile_append_dropWhile.symm⟩
  exact List.all_eq_true.1 List.all_takeWhile

theorem exists_blank_of_skipBlank {s t : Bytes} (hskip : skipBlank s = t) :
    ∃ blank, Blank blank ∧ s = blank ++ t :=
  hskip ▸ exists_blank s

theorem skipBlank_skipBlank (s : Bytes) : skipBlank (skipBlank s) = skipBlank s := by
  obtain ⟨blank, hblank, hs⟩ := exists_blank s
  have h := skipBlank_append hblank (skipBlank s)
  rw [← hs] at h
  exact h.symm

/-! ## Plain strings -/

theorem denotes_plain {s : Bytes} (hs : ∀ b ∈ s, Plain b) : Denotes s s := by
  induction s with
  | nil => exact .nil
  | cons b s ih =>
      obtain ⟨hb, hrest⟩ := List.forall_mem_cons.1 hs
      exact .plain hb (ih hrest)

/-- A member without blanks, whose name is spelled as it is. -/
theorem member_plain {name : String} {value : Bytes} (hname : ∀ b ∈ Text.bytes name, Plain b)
    (hvalue : IsValue value) :
    Member (name, value) (ascii '"' :: (Text.bytes name ++ ascii '"' :: ascii ':' :: value)) :=
  .mk blank_nil (denotes_plain hname) blank_nil blank_nil hvalue

end MockHttp.Json
