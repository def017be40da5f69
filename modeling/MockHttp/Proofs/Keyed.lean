import Mathlib.Data.List.Nodup
import Mathlib.Data.String.Basic
import MockHttp.Keyed
/-!
# Maps by their keys

A map is determined by what is found in it, so entries that are put into an empty map one after the
other make the same map in any order.
-/

namespace MockHttp.Keyed

variable {β : Type}

theorem find?_eq_none_iff {key : String} {entries : Keyed β} :
    entries.find? key = none ↔ key ∉ entries.keys := by
  induction entries with
  | nil => simp [find?, keys]
  | cons entry entries ih =>
      obtain ⟨k, v⟩ := entry
      simp only [keys] at ih
      by_cases hkey : k = key
      · simp [find?, keys, hkey]
      · have hkey' : key ≠ k := fun h => hkey h.symm
        simp [find?, keys, hkey, hkey', ih]

theorem find?_append (key : String) (entries others : Keyed β) :
    find? key (entries ++ others) = (find? key entries).or (find? key others) := by
  induction entries with
  | nil => rfl
  | cons entry entries ih =>
      obtain ⟨k, v⟩ := entry
      rw [List.cons_append, find?, find?, ih]
      split <;> rfl

theorem keys_insert_perm {key : String} {value : β} {entries : Keyed β}
    (hkey : entries.find? key = none) :
    (keys (insert key value entries)).Perm (key :: keys entries) := by
  induction entries with
  | nil => exact List.Perm.refl _
  | cons entry entries ih =>
      obtain ⟨k, v⟩ := entry
      rw [find?_eq_none_iff, keys, List.map_cons, List.mem_cons, not_or] at hkey
      have hrest := ih (find?_eq_none_iff.2 hkey.2)
      rw [insert]
      split
      · exact List.Perm.refl _
      · rw [if_neg hkey.1]
        exact (hrest.cons k).trans (List.Perm.swap key k (keys entries))

theorem eq_or_mem_of_mem_insert {key : String} {value : β} {entries : Keyed β}
    {entry : String × β} (hentry : entry ∈ insert key value entries) :
    entry = (key, value) ∨ entry ∈ entries := by
  induction entries with
  | nil => exact .inl (List.mem_singleton.1 hentry)
  | cons first entries ih =>
      rw [insert] at hentry
      split at hentry
      · exact List.mem_cons.1 hentry
      · split at hentry
        · exact (List.mem_cons.1 hentry).imp_right (List.mem_cons_of_mem first)
        · rcases List.mem_cons.1 hentry with rfl | hentry
          · exact .inr List.mem_cons_self
          · exact (ih hentry).imp_right (List.mem_cons_of_mem first)

/-- Putting a value where there is one leaves the keys as they are. -/
theorem keys_insert_of_isSome {key : String} {value : β} {entries : Keyed β}
    (hsorted : entries.keys.Pairwise (· < ·)) (hkey : (entries.find? key).isSome) :
    (insert key value entries).keys = entries.keys := by
  induction entries with
  | nil => simp [find?] at hkey
  | cons entry entries ih =>
      obtain ⟨k, v⟩ := entry
      obtain ⟨habove, hrest⟩ : (∀ k' ∈ keys entries, k < k') ∧ (keys entries).Pairwise (· < ·) :=
        List.pairwise_cons.1 hsorted
      rw [find?] at hkey
      rw [insert]
      split
      · rename_i hbefore
        rw [if_neg (ne_of_gt hbefore)] at hkey
        have hmem : key ∈ keys entries := by
          by_contra hnone
          rw [find?_eq_none_iff.2 hnone] at hkey
          cases hkey
        exact absurd (habove key hmem) (not_lt_of_gt hbefore)
      · split
        · rename_i hsame
          rw [hsame]
          rfl
        · rename_i hother
          rw [if_neg (Ne.symm hother)] at hkey
          exact congrArg (k :: ·) (ih hrest hkey)

theorem mem_iff_find?_eq_some {entries : Keyed β} (hnodup : entries.keys.Nodup) {key : String}
    {value : β} : (key, value) ∈ entries ↔ entries.find? key = some value := by
  induction entries with
  | nil => simp [find?]
  | cons entry entries ih =>
      obtain ⟨k, v⟩ := entry
      obtain ⟨hfresh, hrest⟩ := List.nodup_cons.1 hnodup
      rw [List.mem_cons, ih hrest, find?]
      by_cases hkey : k = key
      · subst hkey
        have hnone : find? k entries = none := find?_eq_none_iff.2 hfresh
        simp [hnone, eq_comm]
      · simp [hkey, Ne.symm hkey]

theorem nodup_of_pairwise_lt {entries : Keyed β} (hsorted : entries.keys.Pairwise (· < ·)) :
    entries.keys.Nodup :=
  hsorted.imp fun h => h.ne

/-- Entries in the order of their keys are the map they stand for. -/
theorem eq_of_find?_eq {entries others : Keyed β} (hentries : entries.keys.Pairwise (· < ·))
    (hothers : others.keys.Pairwise (· < ·)) (heq : ∀ key, entries.find? key = others.find? key) :
    entries = others := by
  have hkeys := nodup_of_pairwise_lt hentries
  have hkeys' := nodup_of_pairwise_lt hothers
  have hperm : entries.Perm others := by
    apply (List.perm_ext_iff_of_nodup (List.Nodup.of_map _ hkeys) (List.Nodup.of_map _ hkeys')).2
    intro (key, value)
    rw [mem_iff_find?_eq_some hkeys, mem_iff_find?_eq_some hkeys', heq]
  apply hperm.eq_of_pairwise _ (List.pairwise_map.1 hentries) (List.pairwise_map.1 hothers)
  exact fun _ _ _ _ hlt hgt => absurd hgt hlt.asymm

/-! ## Entries put in one after the other -/

/-- The entries put into a map one after the other. -/
def insertAll (entries added : List (String × β)) : Keyed β :=
  added.foldl (fun entries entry => insert entry.1 entry.2 entries) entries

theorem pairwise_keys_insertAll {entries : Keyed β} (hsorted : entries.keys.Pairwise (· < ·))
    (added : List (String × β)) : (insertAll entries added).keys.Pairwise (· < ·) := by
  induction added generalizing entries with
  | nil => exact hsorted
  | cons entry added ih => exact ih (pairwise_keys_insert hsorted)

theorem find?_insertAll {added : List (String × β)} (hnodup : (keys added).Nodup)
    (entries : Keyed β) (key : String) :
    (insertAll entries added).find? key = (find? key added).or (entries.find? key) := by
  induction added generalizing entries with
  | nil => rfl
  | cons entry added ih =>
      obtain ⟨k, v⟩ := entry
      obtain ⟨hfresh, hrest⟩ := List.nodup_cons.1 hnodup
      have hstep := ih hrest (insert k v entries)
      rw [find?_insert] at hstep
      refine hstep.trans ?_
      rw [find?]
      by_cases hkey : k = key
      · subst hkey
        have hnone : find? k added = none := find?_eq_none_iff.2 hfresh
        simp [hnone]
      · simp [hkey]

/-- In whatever order its entries are put in, the map comes out. -/
theorem insertAll_eq_of_perm {added : List (String × β)} {entries : Keyed β}
    (hperm : added.Perm entries) (hsorted : entries.keys.Pairwise (· < ·)) :
    insertAll [] added = entries := by
  have hnodup := nodup_of_pairwise_lt hsorted
  have hadded : (keys added).Nodup := (hperm.map Prod.fst).nodup_iff.2 hnodup
  refine eq_of_find?_eq (pairwise_keys_insertAll List.Pairwise.nil added) hsorted fun key => ?_
  rw [find?_insertAll hadded]
  refine Option.ext fun value => ?_
  rw [show find? key ([] : Keyed β) = none from rfl, Option.or_none,
    ← mem_iff_find?_eq_some hadded, ← mem_iff_find?_eq_some hnodup, hperm.mem_iff]

end MockHttp.Keyed
