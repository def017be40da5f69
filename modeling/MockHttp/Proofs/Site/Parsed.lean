import MockHttp.Proofs.Json.Yields
import MockHttp.Proofs.Keyed
import MockHttp.Proofs.Site.Nodes
import MockHttp.Site.Document
/-!
# Trees that are read

A tree is read by putting one group after the other at its segment, so the siblings of a tree that
was read stand in strictly increasing order at every level.
-/

namespace MockHttp.SegmentTree

open Json

theorem mem_segments_insert {segment other : String} {group : Group} {tree : SegmentTree} :
    other ∈ (tree.insert segment group).segments ↔ other = segment ∨ other ∈ tree.segments := by
  induction tree using induction_subtree with
  | nil => simp [insert, segments, toList]
  | node own handlers children siblings _ ihs =>
      rw [insert]
      split
      · simp [segments_node]
      · split
        · rename_i heq
          simp [segments_node, heq]
        · rw [segments_node, segments_node, List.mem_cons, List.mem_cons, ihs]
          exact or_left_comm

theorem Ordered.insert {tree : SegmentTree} (hordered : tree.Ordered) (segment : String)
    {group : Group} (hgroup : (subtree group.children).Ordered) :
    (tree.insert segment group).Ordered := by
  induction tree using induction_subtree with
  | nil =>
      rw [SegmentTree.insert, ordered_node]
      exact ⟨by simp [segments, toList], hgroup, trivial⟩
  | node own handlers children siblings _ ihs =>
      obtain ⟨habove, hchildren, hsiblings⟩ := ordered_node.1 hordered
      rw [SegmentTree.insert]
      split
      · rename_i hbefore
        refine ordered_node.2 ⟨?_, hgroup, hordered⟩
        intro other hother
        rw [segments_node, List.mem_cons] at hother
        rcases hother with rfl | hother
        · exact hbefore
        · exact String.lt_trans hbefore (habove other hother)
      · rename_i hnot
        split
        · rename_i heq
          exact ordered_node.2 ⟨heq ▸ habove, hgroup, hsiblings⟩
        · rename_i hne
          refine ordered_node.2 ⟨?_, hchildren, ihs hsiblings⟩
          intro other hother
          rcases mem_segments_insert.1 hother with rfl | hother
          · exact Std.lt_of_le_of_ne (String.not_lt.1 hnot) (Ne.symm hne)
          · exact habove other hother

/-! ## Nodes as the entries of a map -/

theorem toList_insert (segment : String) (group : Group) (tree : SegmentTree) :
    (tree.insert segment group).toList = Keyed.insert segment group tree.toList := by
  induction tree using induction_subtree with
  | nil => rfl
  | node own handlers children siblings _ ih =>
      rw [SegmentTree.insert, toList, Keyed.insert]
      split
      · rfl
      · split
        · rfl
        · rw [toList, ih]

theorem Ordered.pairwise_keys {tree : SegmentTree} (hordered : tree.Ordered) :
    (Keyed.keys tree.toList).Pairwise (· < ·) := by
  induction tree using induction_subtree with
  | nil => exact List.Pairwise.nil
  | node own handlers children siblings _ ih =>
      obtain ⟨habove, -, hsiblings⟩ := ordered_node.1 hordered
      exact List.pairwise_cons.2 ⟨habove, ih hsiblings⟩

theorem mem_toList_insert {tree : SegmentTree} (hordered : tree.Ordered) {segment other : String}
    {group own : Group} : (other, own) ∈ (tree.insert segment group).toList ↔
      (other = segment ∧ own = group) ∨ (other ≠ segment ∧ (other, own) ∈ tree.toList) := by
  have hkeys := hordered.pairwise_keys
  rw [toList_insert, Keyed.mem_iff_find?_eq_some (Keyed.nodup_of_pairwise_lt hkeys),
    Keyed.mem_iff_find?_eq_some (Keyed.nodup_of_pairwise_lt (Keyed.pairwise_keys_insert hkeys)),
    Keyed.find?_insert]
  by_cases hother : segment = other
  · simp [hother, eq_comm]
  · simp [hother, Ne.symm hother]

/-! ## Readers -/

/-- The handlers of a group have one property, and the tree below it has another. -/
def GroupHas (handled : List Handler → Prop) (below : SegmentTree → Prop) (group : Group) : Prop :=
  handled group.handlers ∧ below (subtree group.children)

/-- The same of the fields of a group that have been read. -/
def FieldsHave (handled : List Handler → Prop) (below : SegmentTree → Prop)
    (fields : GroupFields) : Prop :=
  (∀ handlers ∈ fields.handlers, handled handlers) ∧
    ∀ children ∈ fields.children, below (subtree children)

section

variable {handled : List Handler → Prop} {below : SegmentTree → Prop}

theorem FieldsHave.group (hnone : handled []) (hnil : below .nil) {fields : GroupFields}
    (hfields : FieldsHave handled below fields) : GroupHas handled below fields.group := by
  constructor
  · unfold GroupFields.group
    cases hhandlers : fields.handlers with
    | none => exact hnone
    | some handlers => exact hfields.1 handlers hhandlers
  · unfold GroupFields.group
    cases hchildren : fields.children with
    | none => exact hnil
    | some children => exact hfields.2 children hchildren

theorem yields_nullOr (hnil : below .nil) {read : Reader SegmentTree} (hread : Yields below read) :
    Yields (fun children => below (subtree children)) (nullOr read) := by
  intro s value rest hnull
  unfold nullOr at hnull
  split at hnull
  · obtain ⟨⟨tree, s'⟩, htree, hreturn⟩ := bind_eq_ok_iff.1 hnull
    obtain ⟨rfl, -⟩ := Prod.mk.inj (Except.ok.inj hreturn)
    exact hread [] tree s' htree
  · split at hnull
    · obtain ⟨s', -, hreturn⟩ := bind_eq_ok_iff.1 hnull
      obtain ⟨rfl, -⟩ := Prod.mk.inj (Except.ok.inj hreturn)
      exact hnil
    · obtain ⟨⟨tree, s'⟩, htree, hreturn⟩ := bind_eq_ok_iff.1 hnull
      obtain ⟨rfl, -⟩ := Prod.mk.inj (Except.ok.inj hreturn)
      exact hread _ tree s' htree

variable {handlers : Reader (List Handler)} {children : Reader (Option SegmentTree)}

theorem yields_groupMember (hhandlers : Yields handled handlers)
    (hchildren : Yields (fun children => below (subtree children)) children)
    {fields : GroupFields} (hfields : FieldsHave handled below fields) (name : String) :
    Yields (FieldsHave handled below) (groupMember handlers children fields name) := by
  intro s value rest hmember
  unfold groupMember at hmember
  split at hmember
  · split at hmember
    · cases hmember
    · obtain ⟨⟨own, s'⟩, hown, hreturn⟩ := bind_eq_ok_iff.1 hmember
      obtain ⟨rfl, -⟩ := Prod.mk.inj (Except.ok.inj hreturn)
      refine ⟨fun h hh => ?_, hfields.2⟩
      obtain rfl := Option.some.inj hh
      exact hhandlers.of_memberValue s own s' hown
  · split at hmember
    · split at hmember
      · cases hmember
      · obtain ⟨⟨own, s'⟩, hown, hreturn⟩ := bind_eq_ok_iff.1 hmember
        obtain ⟨rfl, -⟩ := Prod.mk.inj (Except.ok.inj hreturn)
        refine ⟨hfields.1, fun c hc => ?_⟩
        obtain rfl := Option.some.inj hc
        exact hchildren.of_memberValue s own s' hown
    · obtain ⟨s', -, hreturn⟩ := bind_eq_ok_iff.1 hmember
      obtain ⟨rfl, -⟩ := Prod.mk.inj (Except.ok.inj hreturn)
      exact hfields

theorem yields_groupBehind (hnone : handled []) (hnil : below .nil)
    (hhandlers : Yields handled handlers)
    (hchildren : Yields (fun children => below (subtree children)) children) (bracket : UInt8) :
    Yields (GroupHas handled below) (groupBehind bracket handlers children) := by
  intro s value rest hgroup
  unfold groupBehind at hgroup
  split at hgroup
  · obtain ⟨⟨first, s₁⟩, hfirst, hnext⟩ := bind_eq_ok_iff.1 hgroup
    obtain ⟨⟨second, s₂⟩, hsecond, hlast⟩ := bind_eq_ok_iff.1 hnext
    obtain ⟨s₃, -, hreturn⟩ := bind_eq_ok_iff.1 hlast
    obtain ⟨rfl, -⟩ := Prod.mk.inj (Except.ok.inj hreturn)
    have hfields : FieldsHave handled below ⟨first, second⟩ :=
      ⟨hhandlers.of_element? true s first s₁ hfirst,
        hchildren.of_element? first.isNone s₁ second s₂ hsecond⟩
    exact hfields.group hnone hnil
  · obtain ⟨⟨fields, s'⟩, hfields, hreturn⟩ := bind_eq_ok_iff.1 hgroup
    obtain ⟨rfl, -⟩ := Prod.mk.inj (Except.ok.inj hreturn)
    have hstart : FieldsHave handled below ⟨none, none⟩ := ⟨nofun, nofun⟩
    have hobject : Yields (FieldsHave handled below)
        (object (groupMember handlers children) ⟨none, none⟩) :=
      Yields.of_object hstart fun fields name hfields =>
        yields_groupMember hhandlers hchildren hfields name
    exact (hobject s fields s' hfields).group hnone hnil

end

theorem yields_treeMember {grouped : Group → Prop} {treed : SegmentTree → Prop}
    (hinsert : ∀ tree segment group, treed tree → grouped group →
      treed (tree.insert segment group))
    {group : Reader Group} (hgroup : Yields grouped group) {tree : SegmentTree}
    (htree : treed tree) (segment : String) : Yields treed (treeMember group tree segment) := by
  intro s value rest hmember
  obtain ⟨⟨own, s'⟩, hown, hreturn⟩ := bind_eq_ok_iff.1 hmember
  obtain ⟨rfl, -⟩ := Prod.mk.inj (Except.ok.inj hreturn)
  exact hinsert tree segment own htree (hgroup.of_memberValue s own s' hown)

/-- What is true of empty trees, and stays true when groups are made of what was read and put into
trees, is true of all trees and groups that are read.  It may depend on the brackets left, on which
the induction is. -/
theorem yields_of_kept {treed : Nat → SegmentTree → Prop}
    {grouped : Nat → Group → Prop} {handled : Nat → List Handler → Prop}
    (hnil : ∀ depth, treed depth .nil) (hnone : ∀ depth, handled depth [])
    (hhandlers : ∀ depth, Yields (handled depth) (readHandlers depth))
    (hgroup : ∀ depth group, GroupHas (handled depth) (treed depth) group →
      grouped (depth + 1) group)
    (hinsert : ∀ depth tree segment group, treed (depth + 1) tree → grouped depth group →
      treed (depth + 1) (tree.insert segment group)) (depth : Nat) :
    Yields (treed depth) (readTree depth) ∧ Yields (grouped depth) (readGroup depth) := by
  induction depth with
  | zero =>
      constructor
      · rw [readTree]
        refine Yields.of_withFirst fun b s value rest hread => ?_
        split at hread
        · exact Yields.of_refuse _ _ value rest hread
        · cases hread
      · rw [readGroup]
        refine Yields.of_withFirst fun b s value rest hread => ?_
        split at hread
        · cases hread
        · exact Yields.of_refuse _ _ value rest hread
  | succ depth ih =>
      obtain ⟨htree, hbelow⟩ := ih
      constructor
      · rw [readTree]
        refine Yields.of_withFirst fun b s value rest hread => ?_
        split at hread
        · exact Yields.of_refuse _ _ value rest hread
        · exact Yields.of_object (hnil (depth + 1)) (fun tree segment htree =>
            yields_treeMember (hinsert depth) hbelow htree segment) s value rest hread
      · rw [readGroup]
        refine Yields.of_withFirst fun b s value rest hread => ?_
        split at hread
        · exact hgroup depth value (yields_groupBehind (hnone depth) (hnil depth)
            (hhandlers depth) (yields_nullOr (hnil depth) htree) b s value rest hread)
        · exact Yields.of_refuse _ _ value rest hread

theorem property_of_parse {treed : SegmentTree → Prop} (hnil : treed .nil)
    (hread : Yields treed (readTree maxDepth)) {document : Bytes} {tree : SegmentTree}
    (hparse : parse document = .ok tree) : treed tree := by
  unfold parse at hparse
  cases hwhole : whole (nullOr (readTree maxDepth)) document with
  | error error => rw [hwhole] at hparse; cases hparse
  | ok value =>
      rw [hwhole] at hparse
      obtain rfl := Except.ok.inj hparse
      exact property_of_whole (yields_nullOr hnil hread) hwhole

/-- What a group says is below its segment is ordered. -/
def GroupOrdered (group : Group) : Prop :=
  (subtree group.children).Ordered

theorem yields_readTree_and_readGroup (depth : Nat) :
    Yields Ordered (readTree depth) ∧ Yields GroupOrdered (readGroup depth) :=
  @yields_of_kept (fun _ => Ordered) (fun _ => GroupOrdered) (fun _ _ => True)
    (fun _ => trivial) (fun _ => trivial) (fun _ _ _ _ _ => trivial) (fun _ _ hgroup => hgroup.2)
    (fun _ _ segment _ htree hgroup => htree.insert segment hgroup) depth

end MockHttp.SegmentTree
