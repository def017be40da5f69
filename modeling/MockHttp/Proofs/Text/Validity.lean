import MockHttp.Proofs.Text.ByteOrder
/-!
# The bytes of a text are well formed

The encoding of a character is one chunk, which the ranges behind its lead byte let through to its
last byte, and so the well-formed beginning of a text's bytes is all of them.
-/

namespace MockHttp.Text

/-- Whether each byte falls into the range at its place, and there is one for each range. -/
inductive Within : List (UInt8 × UInt8) → Bytes → Prop where
  | nil : Within [] []
  | cons {low high b : UInt8} {ranges : List (UInt8 × UInt8)} {s : Bytes} :
      low ≤ b ∧ b ≤ high → Within ranges s → Within ((low, high) :: ranges) (b :: s)

theorem continued_append {ranges : List (UInt8 × UInt8)} {encoded : Bytes}
    (hwithin : Within ranges encoded) (s : Bytes) : continued ranges (encoded ++ s) = encoded := by
  induction hwithin with
  | nil => cases s <;> rfl
  | cons hrange _ ih => rw [List.cons_append, continued, if_pos hrange, ih]

theorem Within.length_eq {ranges : List (UInt8 × UInt8)} {encoded : Bytes}
    (hwithin : Within ranges encoded) : encoded.length = ranges.length := by
  induction hwithin with
  | nil => rfl
  | cons _ _ ih => rw [List.length_cons, List.length_cons, ih]

theorem chunk_append {lead : UInt8} {ranges : List (UInt8 × UInt8)} {encoded : Bytes}
    (hlead : continuations lead = some ranges) (hwithin : Within ranges encoded) (s : Bytes) :
    chunk lead (encoded ++ s) = .scalar (lead :: encoded) := by
  simp only [chunk, hlead, continued_append hwithin]
  exact if_pos hwithin.length_eq

theorem within_sixBits {low high : UInt8} {count point : Nat}
    (hlow : low.toNat ≤ point / 64 ^ count % 64 + 128)
    (hhigh : point / 64 ^ count % 64 + 128 ≤ high.toNat) :
    low ≤ UInt8.ofNat (point / 64 ^ count % 64 + 128) ∧
      UInt8.ofNat (point / 64 ^ count % 64 + 128) ≤ high := by
  have hbits : point / 64 ^ count % 64 < 64 := Nat.mod_lt _ (by omega)
  rw [UInt8.le_iff_toNat_le, UInt8.le_iff_toNat_le, UInt8.toNat_ofNat', Nat.mod_eq_of_lt (by omega)]
  exact ⟨hlow, hhigh⟩

theorem within_sixBitGroups (count point : Nat) :
    Within (List.replicate count (0x80, 0xBF)) (sixBitGroups count point) := by
  induction count with
  | zero => exact .nil
  | succ count ih =>
      have hbits : point / 64 ^ count % 64 < 64 := Nat.mod_lt _ (by omega)
      refine .cons (within_sixBits ?_ ?_) ih
      · exact Nat.le_add_left _ _
      · simp only [UInt8.reduceToNat]
        omega

/-- Only the first byte behind the lead byte may have a range of its own. -/
theorem within_sixBitGroups_succ {low high : UInt8} (count point : Nat)
    (hlow : low.toNat ≤ point / 64 ^ count % 64 + 128)
    (hhigh : point / 64 ^ count % 64 + 128 ≤ high.toNat) :
    Within ((low, high) :: List.replicate count (0x80, 0xBF)) (sixBitGroups (count + 1) point) :=
  .cons (within_sixBits hlow hhigh) (within_sixBitGroups count point)

/-- What the ranges of a lead byte are, as a matter of numbers. -/
theorem continuations_ofNat {lead : Nat} (hlead : lead < 256) :
    continuations (UInt8.ofNat lead) =
      if lead < 0x80 then some []
      else if lead < 0xC2 then none
      else if lead < 0xE0 then some [(0x80, 0xBF)]
      else if lead = 0xE0 then some [(0xA0, 0xBF), (0x80, 0xBF)]
      else if lead = 0xED then some [(0x80, 0x9F), (0x80, 0xBF)]
      else if lead < 0xF0 then some [(0x80, 0xBF), (0x80, 0xBF)]
      else if lead = 0xF0 then some [(0x90, 0xBF), (0x80, 0xBF), (0x80, 0xBF)]
      else if lead < 0xF4 then some [(0x80, 0xBF), (0x80, 0xBF), (0x80, 0xBF)]
      else if lead = 0xF4 then some [(0x80, 0x8F), (0x80, 0xBF), (0x80, 0xBF)]
      else none := by
  have hnat : (UInt8.ofNat lead).toNat = lead := by
    rw [UInt8.toNat_ofNat', Nat.mod_eq_of_lt (by omega)]
  rw [continuations]
  simp only [UInt8.lt_iff_toNat_lt, ← UInt8.toNat_inj, hnat, UInt8.reduceToNat]

/-- Of three bytes the second has ranges of its own: it makes the point great enough behind `E0`,
and keeps it from the surrogates behind `ED`. -/
theorem exists_continuations_of_three {point : Nat} (hlow : 0x7ff < point)
    (hhigh : point ≤ 0xffff) (hpoint : point < 0xD800 ∨ 0xDFFF < point) :
    ∃ ranges, continuations (UInt8.ofNat (point / 64 ^ 2 % 0x10 + 0xe0)) = some ranges ∧
      Within ranges (sixBitGroups 2 point) := by
  generalize hlead : point / 64 ^ 2 % 0x10 + 0xe0 = lead
  have hrange : 0xe0 ≤ lead ∧ lead < 0xf0 := by omega
  rw [continuations_ofNat (by omega), if_neg (by omega), if_neg (by omega), if_neg (by omega)]
  by_cases hE0 : lead = 0xe0
  · rw [if_pos hE0]
    refine ⟨_, rfl, within_sixBitGroups_succ 1 point ?_ ?_⟩ <;>
      simp only [UInt8.reduceToNat] <;> omega
  · rw [if_neg hE0]
    by_cases hED : lead = 0xed
    · rw [if_pos hED]
      refine ⟨_, rfl, within_sixBitGroups_succ 1 point ?_ ?_⟩ <;>
        simp only [UInt8.reduceToNat] <;> omega
    · rw [if_neg hED, if_pos hrange.2]
      exact ⟨_, rfl, within_sixBitGroups 2 point⟩

/-- Of four bytes the second keeps the point within the code points at both ends. -/
theorem exists_continuations_of_four {point : Nat} (hlow : 0xffff < point)
    (hhigh : point < 0x110000) :
    ∃ ranges, continuations (UInt8.ofNat (point / 64 ^ 3 % 0x08 + 0xf0)) = some ranges ∧
      Within ranges (sixBitGroups 3 point) := by
  generalize hlead : point / 64 ^ 3 % 0x08 + 0xf0 = lead
  have hrange : 0xf0 ≤ lead ∧ lead ≤ 0xf4 := by omega
  rw [continuations_ofNat (by omega), if_neg (by omega), if_neg (by omega), if_neg (by omega),
    if_neg (by omega), if_neg (by omega), if_neg (by omega)]
  by_cases hF0 : lead = 0xf0
  · rw [if_pos hF0]
    refine ⟨_, rfl, within_sixBitGroups_succ 2 point ?_ ?_⟩ <;>
      simp only [UInt8.reduceToNat] <;> omega
  · rw [if_neg hF0]
    by_cases hF4 : lead < 0xf4
    · rw [if_pos hF4]
      exact ⟨_, rfl, within_sixBitGroups 3 point⟩
    · rw [if_neg hF4, if_pos (by omega)]
      refine ⟨_, rfl, within_sixBitGroups_succ 2 point ?_ ?_⟩ <;>
        simp only [UInt8.reduceToNat] <;> omega

/-- A code point that is no surrogate is encoded as its lead byte allows. -/
theorem exists_encodePoint {point : Nat}
    (hpoint : point < 0xD800 ∨ 0xDFFF < point ∧ point < 0x110000) :
    ∃ lead ranges encoded, encodePoint point = lead :: encoded ∧
      continuations lead = some ranges ∧ Within ranges encoded := by
  rw [encodePoint]
  split_ifs with h1 h2 h3
  · refine ⟨_, [], _, rfl, ?_, .nil⟩
    rw [continuations_ofNat (by omega), if_pos (by omega)]
  · refine ⟨_, [(0x80, 0xBF)], _, rfl, ?_, within_sixBitGroups 1 point⟩
    rw [continuations_ofNat (by omega), if_neg (by omega), if_neg (by omega), if_pos (by omega)]
  · obtain ⟨ranges, hranges, hwithin⟩ := exists_continuations_of_three (by omega) h3 (by omega)
    exact ⟨_, ranges, _, rfl, hranges, hwithin⟩
  · have hhigh : point < 0x110000 := by omega
    obtain ⟨ranges, hranges, hwithin⟩ := exists_continuations_of_four (by omega) hhigh
    exact ⟨_, ranges, _, rfl, hranges, hwithin⟩

theorem validLength_utf8EncodeChar_append (c : Char) (s : Bytes) :
    validLength (String.utf8EncodeChar c ++ s) =
      (String.utf8EncodeChar c).length + validLength s := by
  have hpoint : c.val.toNat < 0xD800 ∨ 0xDFFF < c.val.toNat ∧ c.val.toNat < 0x110000 := c.valid
  obtain ⟨lead, ranges, encoded, hencoded, hlead, hwithin⟩ := exists_encodePoint hpoint
  rw [utf8EncodeChar_eq, hencoded, List.cons_append, validLength, chunk_append hlead hwithin]
  simp

/-- All of a text's bytes are well formed. -/
theorem validLength_bytes (text : String) : validLength (bytes text) = (bytes text).length := by
  rw [bytes]
  induction text.toList with
  | nil => rw [List.flatMap_nil, validLength, List.length_nil]
  | cons c chars ih =>
      rw [List.flatMap_cons, validLength_utf8EncodeChar_append, ih, List.length_append]

end MockHttp.Text
