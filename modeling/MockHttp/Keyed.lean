/-!
# Entries in the order of their keys

A finite map from texts, kept as a list whose keys strictly increase in byte order.  UTF-8 keeps
the order of code points, so `String`'s own order is the byte order.
-/

namespace MockHttp

/-- Entries of a map, by strictly increasing key. -/
abbrev Keyed (β : Type) := List (String × β)

namespace Keyed

variable {β : Type}

def find? (key : String) : Keyed β → Option β
  | [] => none
  | (k, v) :: entries => if k = key then some v else find? key entries

/-- Puts a value at a key, in place of the one that was there. -/
def insert (key : String) (value : β) : Keyed β → Keyed β
  | [] => [(key, value)]
  | (k, v) :: entries =>
      if key < k then (key, value) :: (k, v) :: entries
      else if key = k then (key, value) :: entries
      else (k, v) :: insert key value entries

def keys (entries : Keyed β) : List String :=
  entries.map Prod.fst

@[simp]
theorem find?_insert (key k : String) (value : β) (entries : Keyed β) :
    (insert key value entries).find? k = if key = k then some value else entries.find? k := by
  induction entries with
  | nil => rfl
  | cons entry entries ih =>
      obtain ⟨k', v⟩ := entry
      simp only [insert]
      split
      · simp only [find?]
      · split
        · next h => subst h; simp only [find?]; split <;> rfl
        · next h =>
            simp only [find?, ih]
            split
            · next h' => subst h'; simp [h]
            · rfl

theorem mem_keys_insert {key k : String} {value : β} {entries : Keyed β} :
    k ∈ (insert key value entries).keys ↔ k = key ∨ k ∈ entries.keys := by
  induction entries with
  | nil => simp [insert, keys]
  | cons entry entries ih =>
      obtain ⟨k', v⟩ := entry
      simp only [keys] at ih
      simp only [insert, keys]
      split
      · simp
      · split
        · next h => subst h; simp
        · simp only [List.map_cons, List.mem_cons, ih]
          exact or_left_comm

theorem pairwise_keys_insert {key : String} {value : β} {entries : Keyed β}
    (sorted : entries.keys.Pairwise (· < ·)) :
    (insert key value entries).keys.Pairwise (· < ·) := by
  induction entries with
  | nil => simp [insert, keys]
  | cons entry entries ih =>
      obtain ⟨k, v⟩ := entry
      have above : ∀ k' ∈ keys entries, k < k' := (List.pairwise_cons.1 sorted).1
      have rest : (keys entries).Pairwise (· < ·) := (List.pairwise_cons.1 sorted).2
      simp only [insert]
      split
      · next before =>
          refine List.pairwise_cons.2 ⟨fun k' member => ?_, sorted⟩
          rcases List.mem_cons.1 member with rfl | member
          · exact before
          · exact String.lt_trans before (above k' member)
      · next notBefore =>
          split
          · next same =>
              subst same
              exact List.pairwise_cons.2 ⟨above, rest⟩
          · next differs =>
              refine List.pairwise_cons.2 ⟨fun k' member => ?_, ih rest⟩
              rcases mem_keys_insert.1 member with rfl | member
              · exact Std.lt_of_le_of_ne (String.not_lt.1 notBefore) (Ne.symm differs)
              · exact above k' member

end Keyed

end MockHttp
