import MockHttp.Proofs.Settings.Resolution
import MockHttp.Proofs.Site.Reading
import MockHttp.Proofs.Site.Reports
import MockHttp.Proofs.Site.Written
import MockHttp.Site.Load
/-!
# Milestones on the way to a site

Loading a site reports that it begins, that the tree is decoded, that the tree is mounted and that
the site is ready.  Each is reported once its step has succeeded, so how many were reported says how
the loading ended, and what they report are numbers of the tree that the document stands for.
-/

namespace MockHttp

namespace SegmentTree

/-! ## What a file has to say about a tree -/

variable {files : Files} {path : String} {tree : SegmentTree} {error : LoadError}

/-- The file at a path is a document of a tree. -/
def StoredAt (files : Files) (path : String) (tree : SegmentTree) : Prop :=
  ∃ content, files path = .ok content ∧ parse content = .ok tree

/-- There is no tree at a path, and the error says why: there is no file, or one that cannot be read
or is not a document. -/
inductive NotStored (files : Files) (path : String) : LoadError → Prop where
  | missing (hread : files path = .error .missing) : NotStored files path (.missing path)
  | unreadable {failure : ReadFailure} (hread : files path = .error failure)
      (hthere : failure ≠ .missing) : NotStored files path (.unreadable path failure)
  | badDocument {content : Bytes} {error : Json.Error} (hread : files path = .ok content)
      (hparse : parse content = .error error) : NotStored files path (.badDocument error)

theorem storedAt_or_notStored (files : Files) (path : String) :
    (∃ tree, StoredAt files path tree) ∨ ∃ error, NotStored files path error := by
  cases hread : files path with
  | error failure =>
      by_cases hmissing : failure = .missing
      · exact .inr ⟨_, .missing (hmissing ▸ hread)⟩
      · exact .inr ⟨_, .unreadable hread hmissing⟩
  | ok content =>
      cases hparse : parse content with
      | error error => exact .inr ⟨_, .badDocument hread hparse⟩
      | ok tree => exact .inl ⟨tree, content, hread, hparse⟩

theorem load_of_storedAt (hstored : StoredAt files path tree) :
    load files path = (.ok tree, [.treeDecoded path tree.length]) := by
  obtain ⟨content, hread, hparse⟩ := hstored
  simp only [load, Files.load_eq_ok_iff.2 hread, hparse]

theorem load_of_notStored (hnot : NotStored files path error) :
    load files path = (.error error, []) := by
  cases hnot with
  | missing hread => simp only [load, Files.load, hread]
  | unreadable hread hthere => simp only [load, Files.load, hread]
  | badDocument hread hparse => simp only [load, Files.load_eq_ok_iff.2 hread, hparse]

theorem fst_load_eq_ok_iff : (load files path).1 = .ok tree ↔ StoredAt files path tree := by
  constructor
  · intro hload
    rcases storedAt_or_notStored files path with ⟨stored, hstored⟩ | ⟨error, hnot⟩
    · rw [load_of_storedAt hstored] at hload
      obtain rfl := Except.ok.inj hload
      exact hstored
    · rw [load_of_notStored hnot] at hload
      cases hload
  · intro hstored
    rw [load_of_storedAt hstored]

theorem StoredAt.unique {other : SegmentTree} (hstored : StoredAt files path tree)
    (hother : StoredAt files path other) : tree = other := by
  obtain ⟨content, hread, hparse⟩ := hstored
  obtain ⟨content', hread', hparse'⟩ := hother
  obtain rfl := Except.ok.inj (hread.symm.trans hread')
  exact Except.ok.inj (hparse.symm.trans hparse')

end SegmentTree

namespace Site

open SegmentTree

variable {files : Files} {settings : Settings}

theorem fst_load (files : Files) (settings : Settings) :
    (load files settings).1 = match (SegmentTree.load files settings.routeFile).1 with
      | .error error => .error (.returned (.notLoaded error))
      | .ok tree => (ofTree tree).1.mapError (Failure.map .notMounted) := by
  rw [load]
  rcases SegmentTree.load files settings.routeFile with ⟨error | tree, events⟩
  · rfl
  · dsimp only
    rcases ofTree tree with ⟨error | site, mounting⟩ <;> rfl

theorem load_eq_ok_iff {site : Site} :
    (load files settings).1 = .ok site ↔
      ∃ tree, StoredAt files settings.routeFile tree ∧ (ofTree tree).1 = .ok site := by
  simp only [fst_load, ← fst_load_eq_ok_iff]
  rcases (SegmentTree.load files settings.routeFile).1 with error | tree
  · simp
  · cases hsite : (ofTree tree).1 <;> simp [hsite, Except.mapError]

end Site

end MockHttp
