/-!
# Bytes and text

Documents arrive as bytes.  This module says how far a byte sequence is well-formed UTF-8, reads
well-formed bytes as text, and reads any bytes as text with U+FFFD in place of what is malformed.
-/

namespace MockHttp

/-- A document, a body or a header value as it travels. -/
abbrev Bytes := List UInt8

namespace Text

def bytes (text : String) : Bytes :=
  text.toList.flatMap String.utf8EncodeChar

def ofBytes? (s : Bytes) : Option String :=
  String.fromUTF8? s.toByteArray

/-- What may follow a lead byte: one range for each continuation byte; `none` for a byte that
leads no character. -/
def continuations (lead : UInt8) : Option (List (UInt8 × UInt8)) :=
  if lead < 0x80 then some []
  else if lead < 0xC2 then none
  else if lead < 0xE0 then some [(0x80, 0xBF)]
  else if lead = 0xE0 then some [(0xA0, 0xBF), (0x80, 0xBF)]
  else if lead = 0xED then some [(0x80, 0x9F), (0x80, 0xBF)]
  else if lead < 0xF0 then some [(0x80, 0xBF), (0x80, 0xBF)]
  else if lead = 0xF0 then some [(0x90, 0xBF), (0x80, 0xBF), (0x80, 0xBF)]
  else if lead < 0xF4 then some [(0x80, 0xBF), (0x80, 0xBF), (0x80, 0xBF)]
  else if lead = 0xF4 then some [(0x80, 0x8F), (0x80, 0xBF), (0x80, 0xBF)]
  else none

/-- The longest run of bytes that fall into the given ranges one by one. -/
def continued : List (UInt8 × UInt8) → Bytes → Bytes
  | (low, high) :: ranges, b :: s =>
      if low ≤ b ∧ b ≤ high then b :: continued ranges s else []
  | _, _ => []

/-- One step through a byte sequence: the bytes of a character, or the longest beginning of a
character that goes wrong there. -/
inductive Chunk where
  | scalar (encoded : Bytes)
  | malformed (length : Nat)

def chunk (lead : UInt8) (s : Bytes) : Chunk :=
  match continuations lead with
  | none => .malformed 1
  | some ranges =>
      let found := continued ranges s
      if found.length = ranges.length then .scalar (lead :: found)
      else .malformed (found.length + 1)

def validLength : Bytes → Nat
  | [] => 0
  | b :: s =>
      match chunk b s with
      | .scalar encoded => encoded.length + validLength (s.drop (encoded.length - 1))
      | .malformed _ => 0
termination_by s => s.length

/-- The characters of a byte sequence, U+FFFD standing for each malformed chunk. -/
def lossyChars : Bytes → List Char
  | [] => []
  | b :: s =>
      match chunk b s with
      | .scalar encoded =>
          ((ofBytes? encoded).getD "\uFFFD").toList ++ lossyChars (s.drop (encoded.length - 1))
      | .malformed length => '\uFFFD' :: lossyChars (s.drop (length - 1))
termination_by s => s.length

def lossy (s : Bytes) : String :=
  String.ofList (lossyChars s)

end Text

end MockHttp
