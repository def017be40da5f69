import Mathlib.Data.String.Basic
import MockHttp.Text.Utf8
/-!
# Pieces of texts

A piece is read up to the first element that stops it.  The characters and the size of a text are
those of its pieces, and a piece of ASCII has one byte for each character.
-/

namespace MockHttp.Text

/-! ## Reading up to a stop -/

section

variable {α : Type} {p : α → Bool} {piece rest : List α}

theorem takeWhile_append_stop (hpiece : ∀ a ∈ piece, p a = true)
    (hrest : ∀ a ∈ rest.head?, p a = false) : (piece ++ rest).takeWhile p = piece := by
  rw [List.takeWhile_append_of_pos hpiece]
  cases rest with
  | nil => simp
  | cons a rest => rw [List.takeWhile_cons_of_neg (by simp [hrest a rfl]), List.append_nil]

theorem dropWhile_append_stop (hpiece : ∀ a ∈ piece, p a = true)
    (hrest : ∀ a ∈ rest.head?, p a = false) : (piece ++ rest).dropWhile p = rest := by
  rw [List.dropWhile_append_of_pos hpiece]
  cases rest with
  | nil => rfl
  | cons a rest => rw [List.dropWhile_cons_of_neg (by simp [hrest a rfl])]

end

/-! ## Characters and sizes -/

theorem mem_toList_join {pieces : List String} {c : Char} :
    c ∈ (String.join pieces).toList ↔ ∃ piece ∈ pieces, c ∈ piece.toList := by
  induction pieces with
  | nil => simp
  | cons piece pieces ih =>
      rw [String.join_cons, String.toList_append, List.mem_append, ih, List.exists_mem_cons_iff]

theorem utf8ByteSize_le_of_piece {piece whole : String} (hpiece : piece.toList <:+: whole.toList) :
    piece.utf8ByteSize ≤ whole.utf8ByteSize := by
  obtain ⟨before, behind, hwhole⟩ := hpiece
  have hwhole : whole = String.ofList before ++ piece ++ String.ofList behind := by
    rw [← String.toList_inj, ← hwhole]
    simp
  rw [hwhole, String.utf8ByteSize_append, String.utf8ByteSize_append]
  omega

theorem ofBytes?_eq_some_iff {s : Bytes} {text : String} :
    ofBytes? s = some text ↔ s = bytes text := by
  have htext : text.toByteArray = (bytes text).toByteArray := by
    have h := String.toByteArray_ofList (l := text.toList)
    rwa [String.ofList_toList] at h
  rw [← List.toByteArray_inj, ← htext, ofBytes?, String.fromUTF8?]
  split
  · rw [Option.some_inj, ← String.toByteArray_inj]
    rfl
  · rename_i hinvalid
    constructor
    · intro h
      cases h
    · intro h
      exact absurd (h ▸ text.isValidUTF8) hinvalid

end MockHttp.Text
