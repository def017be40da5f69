import Mathlib.Data.String.Basic
import MockHttp.Text.Utf8
/-!
# Byte order

UTF-8 keeps the order of code points: texts compare as their bytes do.  A code point is written as
a lead byte, which grows with the length, and its remaining groups of six bits.
-/

namespace MockHttp.Text

theorem ofNat_lt_ofNat {m n : Nat} (hlt : m < n) (hn : n < 256) :
    UInt8.ofNat m < UInt8.ofNat n := by
  rw [UInt8.lt_iff_toNat_lt, UInt8.toNat_ofNat', UInt8.toNat_ofNat']
  omega

/-- The last groups of six bits of a code point, as continuation bytes. -/
def sixBitGroups : Nat → Nat → Bytes
  | 0, _ => []
  | count + 1, point => UInt8.ofNat (point / 64 ^ count % 64 + 128) :: sixBitGroups count point

theorem sixBitGroups_append_lt {count p q : Nat} (hlt : p % 64 ^ count < q % 64 ^ count)
    (s t : Bytes) : sixBitGroups count p ++ s < sixBitGroups count q ++ t := by
  induction count with
  | zero => simp [Nat.mod_one] at hlt
  | succ count ih =>
      rw [Nat.mod_pow_succ, Nat.mod_pow_succ] at hlt
      have hp : p / 64 ^ count % 64 < 64 := Nat.mod_lt _ (by omega)
      have hq : q / 64 ^ count % 64 < 64 := Nat.mod_lt _ (by omega)
      rw [sixBitGroups, sixBitGroups, List.cons_append, List.cons_append, List.cons_lt_cons_iff]
      rcases Nat.lt_trichotomy (p / 64 ^ count % 64) (q / 64 ^ count % 64) with h | h | h
      · exact .inl (ofNat_lt_ofNat (by omega) (by omega))
      · rw [h] at hlt ⊢
        exact .inr ⟨rfl, ih (by omega)⟩
      · exfalso
        have hpow : p % 64 ^ count < 64 ^ count := Nat.mod_lt _ (Nat.pow_pos (by omega))
        have hqow : q % 64 ^ count < 64 ^ count := Nat.mod_lt _ (Nat.pow_pos (by omega))
        have hmul : 64 ^ count * (q / 64 ^ count % 64 + 1) ≤ 64 ^ count * (p / 64 ^ count % 64) :=
          Nat.mul_le_mul_left _ h
        rw [Nat.mul_add] at hmul
        omega

/-- Two code points of one length: their lead bytes differ, or else their groups do. -/
theorem lead_append_lt {count p q mark room : Nat} (hlt : p < q) (hroom : q / 64 ^ count < room)
    (hmark : room + mark ≤ 256) (s t : Bytes) :
    UInt8.ofNat (p / 64 ^ count % room + mark) :: (sixBitGroups count p ++ s) <
      UInt8.ofNat (q / 64 ^ count % room + mark) :: (sixBitGroups count q ++ t) := by
  have hle : p / 64 ^ count ≤ q / 64 ^ count := Nat.div_le_div_right hlt.le
  rw [Nat.mod_eq_of_lt hroom, Nat.mod_eq_of_lt (by omega), List.cons_lt_cons_iff]
  rcases Nat.lt_or_eq_of_le hle with h | h
  · exact .inl (ofNat_lt_ofNat (by omega) (by omega))
  · refine .inr ⟨by rw [h], sixBitGroups_append_lt ?_ s t⟩
    have hp := Nat.div_add_mod p (64 ^ count)
    have hq := Nat.div_add_mod q (64 ^ count)
    rw [h] at hp
    omega

/-- The encoding of a code point by its length: a mark and the highest bits, then groups of six. -/
def encodePoint (point : Nat) : Bytes :=
  if point ≤ 0x7f then UInt8.ofNat (point / 64 ^ 0 % 0x80 + 0) :: sixBitGroups 0 point
  else if point ≤ 0x7ff then UInt8.ofNat (point / 64 ^ 1 % 0x20 + 0xc0) :: sixBitGroups 1 point
  else if point ≤ 0xffff then UInt8.ofNat (point / 64 ^ 2 % 0x10 + 0xe0) :: sixBitGroups 2 point
  else UInt8.ofNat (point / 64 ^ 3 % 0x08 + 0xf0) :: sixBitGroups 3 point

theorem utf8EncodeChar_eq (c : Char) :
    String.utf8EncodeChar c = encodePoint c.val.toNat := by
  rw [String.utf8EncodeChar, encodePoint]
  split_ifs with h
  · rw [Nat.pow_zero, Nat.div_one, Nat.mod_eq_of_lt (by omega)]
    rfl
  all_goals simp [sixBitGroups]

theorem encodePoint_append_lt {p q : Nat} (hlt : p < q) (hq : q < 0x110000) (s t : Bytes) :
    encodePoint p ++ s < encodePoint q ++ t := by
  have hlead {m n : Nat} (hmn : m < n) (hn : n < 256) (xs ys : Bytes) :
      UInt8.ofNat m :: xs < UInt8.ofNat n :: ys :=
    List.cons_lt_cons_iff.2 (.inl (ofNat_lt_ofNat hmn hn))
  rw [encodePoint, encodePoint]
  -- six of the sixteen pairs of lengths contradict the order; the rest go by the shorter one
  split_ifs <;> try omega
  · exact lead_append_lt hlt (by omega) (by omega) s t
  · exact hlead (by omega) (by omega) _ _
  · exact hlead (by omega) (by omega) _ _
  · exact hlead (by omega) (by omega) _ _
  · exact lead_append_lt hlt (by omega) (by omega) s t
  · exact hlead (by omega) (by omega) _ _
  · exact hlead (by omega) (by omega) _ _
  · exact lead_append_lt hlt (by omega) (by omega) s t
  · exact hlead (by omega) (by omega) _ _
  · exact lead_append_lt hlt (by omega) (by omega) s t

/-- The encodings of two characters differ at a byte, in the direction of the characters. -/
theorem utf8EncodeChar_append_lt {c d : Char} (hlt : c < d) (s t : Bytes) :
    String.utf8EncodeChar c ++ s < String.utf8EncodeChar d ++ t := by
  have hd : d.val.toNat < 0x110000 := by
    rcases d.valid with h | ⟨-, h⟩ <;> omega
  rw [utf8EncodeChar_eq, utf8EncodeChar_eq]
  exact encodePoint_append_lt hlt hd s t

theorem flatMap_utf8EncodeChar_lt {cs ds : List Char} (hlt : cs < ds) :
    cs.flatMap String.utf8EncodeChar < ds.flatMap String.utf8EncodeChar := by
  induction hlt with
  | nil =>
      rename_i d ds
      rw [List.flatMap_nil, List.flatMap_cons]
      cases hencoded : String.utf8EncodeChar d with
      | nil => exact absurd hencoded String.utf8EncodeChar_ne_nil
      | cons b bs => exact List.nil_lt_cons b _
  | cons h ih =>
      rw [List.flatMap_cons, List.flatMap_cons]
      exact List.append_left_lt ih
  | rel h =>
      rw [List.flatMap_cons, List.flatMap_cons]
      exact utf8EncodeChar_append_lt h _ _

/-- Texts compare as their bytes do. -/
theorem bytes_lt_bytes_iff {s t : String} : bytes s < bytes t ↔ s < t := by
  have hmono {s t : String} (hlt : s < t) : bytes s < bytes t :=
    flatMap_utf8EncodeChar_lt (String.lt_iff_toList_lt.1 hlt)
  constructor
  · intro hbytes
    rcases lt_trichotomy s t with h | rfl | h
    · exact h
    · exact absurd hbytes (List.lt_irrefl _)
    · exact absurd hbytes (List.lt_asymm (hmono h))
  · exact hmono

end MockHttp.Text
