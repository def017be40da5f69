import MockHttp.Proofs.Site.Meaning
import MockHttp.Proofs.Site.Reading
/-!
# Bodies are payloads as they are written

The body of a reply is a stretch of the document that the site was made from: the text of the
payload in the handler that answers, and nothing if that handler gives none.
-/

namespace MockHttp

open Json SegmentTree

/-! ## The last of several -/

/-- The last element of a list with a property. -/
def LastWith {α : Type} (property : α → Prop) (items : List α) (item : α) : Prop :=
  ∃ before after, items = before ++ item :: after ∧ property item ∧
    ∀ other ∈ after, ¬ property other

namespace LastWith

variable {α β : Type} {property : α → Prop} {items : List α} {item other : α}

theorem mem (hlast : LastWith property items item) : item ∈ items := by
  obtain ⟨before, after, rfl, -⟩ := hlast
  simp

theorem property_item (hlast : LastWith property items item) : property item := by
  obtain ⟨-, -, -, hitem, -⟩ := hlast
  exact hitem

theorem cons_iff : LastWith property (other :: items) item ↔
    LastWith property items item ∨
      (item = other ∧ property other ∧ ∀ later ∈ items, ¬ property later) := by
  constructor
  · rintro ⟨before, after, hsplit, hitem, hafter⟩
    cases before with
    | nil =>
        obtain ⟨rfl, rfl⟩ := List.cons.inj hsplit
        exact .inr ⟨rfl, hitem, hafter⟩
    | cons first before =>
        obtain ⟨rfl, rfl⟩ := List.cons.inj hsplit
        exact .inl ⟨before, after, rfl, hitem, hafter⟩
  · rintro (⟨before, after, rfl, hitem, hafter⟩ | ⟨rfl, hitem, hafter⟩)
    · exact ⟨other :: before, after, rfl, hitem, hafter⟩
    · exact ⟨[], items, rfl, hitem, hafter⟩

theorem unique (hitem : LastWith property items item) (hother : LastWith property items other) :
    item = other := by
  induction items with
  | nil => exact absurd hitem.mem List.not_mem_nil
  | cons first items ih =>
      rcases cons_iff.1 hitem with hitem | ⟨rfl, -, hnone⟩
      · rcases cons_iff.1 hother with hother | ⟨-, -, hnone⟩
        · exact ih hitem hother
        · exact absurd hitem.property_item (hnone item hitem.mem)
      · rcases cons_iff.1 hother with hother | ⟨rfl, -, -⟩
        · exact absurd hother.property_item (hnone other hother.mem)
        · rfl

section

variable {Means : α → β → Prop} {written : β → Prop} {texts : List β}
  (hiff : ∀ a b, Means a b → (property a ↔ written b))
include hiff

theorem none_of_forall₂ (hmeans : List.Forall₂ Means items texts)
    (hnone : ∀ a ∈ items, ¬ property a) : ∀ b ∈ texts, ¬ written b := by
  induction hmeans with
  | nil => simp
  | cons hfirst _ ih =>
      intro b hb
      rcases List.mem_cons.1 hb with rfl | hb
      · exact fun h => hnone _ List.mem_cons_self ((hiff _ _ hfirst).2 h)
      · exact ih (fun a ha => hnone a (.tail _ ha)) b hb

/-- What stands for the last element is the last one with what stands for the property. -/
theorem of_forall₂ (hmeans : List.Forall₂ Means items texts)
    (hlast : LastWith property items item) :
    ∃ text, LastWith written texts text ∧ Means item text := by
  induction hmeans with
  | nil => exact absurd hlast.mem List.not_mem_nil
  | @cons first text others texts hfirst hothers ih =>
      rcases cons_iff.1 hlast with hlast | ⟨rfl, hitem, hnone⟩
      · obtain ⟨own, hown, hmeans⟩ := ih hlast
        exact ⟨own, cons_iff.2 (.inl hown), hmeans⟩
      · have htext := (hiff _ _ hfirst).1 hitem
        have hlater := none_of_forall₂ hiff hothers hnone
        exact ⟨text, cons_iff.2 (.inr ⟨rfl, htext, hlater⟩), hfirst⟩

end

end LastWith

theorem Endpoint.lastWith_of_lastHandler? {method : String} {handlers : List Handler}
    {handler : Handler} (hlast : lastHandler? method handlers = some handler) :
    LastWith (fun other => other.method = method) handlers handler := by
  induction handlers with
  | nil => cases hlast
  | cons first handlers ih =>
      rw [lastHandler?_cons] at hlast
      rw [LastWith.cons_iff]
      cases hothers : lastHandler? method handlers with
      | some other =>
          rw [hothers] at hlast
          exact .inl (ih (hothers.trans hlast))
      | none =>
          rw [hothers, Option.none_or] at hlast
          split at hlast
          · rename_i hmethod
            obtain rfl := Option.some.inj hlast
            exact .inr ⟨rfl, hmethod, lastHandler?_eq_none_iff.1 hothers⟩
          · cases hlast

/-! ## The handler that answers -/

namespace SegmentTree

theorem GivesMethod.unique {written : Bytes} {method other : String}
    (hmethod : GivesMethod written method) (hother : GivesMethod written other) :
    method = other := by
  obtain ⟨literal, hfield, hliteral⟩ := hmethod
  obtain ⟨literal', hfield', hliteral'⟩ := hother
  obtain rfl := hfield.unique hfield'
  exact hliteral.unique hliteral'

theorem GroupAt.unique {tree group other : Bytes} {way : List String}
    (hgroup : GroupAt tree way group) (hother : GroupAt tree way other) : group = other := by
  induction hgroup with
  | here hmember =>
      cases hother with
      | here hmember' => exact hmember.unique hmember'
      | deeper _ _ hinner => cases hinner
  | deeper hmember hfield _ ih =>
      cases hother with
      | here _ =>
          rename_i hinner _
          cases hinner
      | deeper hmember' hfield' hinner' =>
          obtain rfl := hmember.unique hmember'
          obtain rfl := hfield.unique hfield'
          exact ih hinner'

/-- The text of the handler that answers a method at a node: in the group on the way to the node,
the last element of its handlers that gives the method. -/
def HandlerAt (root : Bytes) (way : List String) (method : String) (written : Bytes) : Prop :=
  ∃ group list elements, GroupAt root way group ∧ FieldOf group "handlers" 0 list ∧
    IsList elements list ∧ LastWith (fun element => GivesMethod element method) elements written

theorem HandlerAt.unique {root written other : Bytes} {way : List String} {method : String}
    (hwritten : HandlerAt root way method written) (hother : HandlerAt root way method other) :
    written = other := by
  obtain ⟨group, list, elements, hgroup, hfield, hlist, hlast⟩ := hwritten
  obtain ⟨group', list', elements', hgroup', hfield', hlist', hlast'⟩ := hother
  obtain rfl := hgroup.unique hgroup'
  obtain rfl := hfield.unique hfield'
  obtain rfl := hlist.unique hlist'
  exact hlast.unique hlast'

theorem GroupAt.isInfix {tree group : Bytes} {way : List String} (hgroup : GroupAt tree way group) :
    group <:+: tree := by
  induction hgroup with
  | here hmember => exact hmember.isInfix.2
  | deeper hmember hfield _ ih => exact ih.trans (hfield.isInfix.2.trans hmember.isInfix.2)

theorem HandlerAt.isInfix {root written : Bytes} {way : List String} {method : String}
    (hwritten : HandlerAt root way method written) : written <:+: root := by
  obtain ⟨group, list, elements, hgroup, hfield, hlist, hlast⟩ := hwritten
  obtain ⟨index, hindex⟩ := List.getElem?_of_mem hlast.mem
  have helement : ElementOf list index written := ⟨elements, hlist, hindex⟩
  exact helement.isInfix.2.trans (hfield.isInfix.2.trans hgroup.isInfix)

/-- The last handler of a method at a node is the one written there. -/
theorem exists_handlerAt {tree : SegmentTree} {root : Bytes} (hmeans : TreeMeans tree root)
    {node : Node} (hnode : node ∈ tree.nodes) {method : String} {handler : Handler}
    (hlast : Endpoint.lastHandler? method node.group.handlers = some handler) :
    ∃ written, HandlerAt root node.chain method written ∧ HandlerMeans handler written := by
  have hhandler := Endpoint.lastWith_of_lastHandler? hlast
  obtain ⟨group, hgroup, hsays⟩ := hmeans node hnode
  obtain ⟨list, hfield, elements, hlist, helements⟩ := hsays (List.ne_nil_of_mem hhandler.mem)
  have hiff (own : Handler) (text : Bytes) (hown : HandlerMeans own text) :
      own.method = method ↔ GivesMethod text method :=
    ⟨fun h => h ▸ hown.method, fun h => hown.method.unique h⟩
  obtain ⟨written, hwritten, hown⟩ := LastWith.of_forall₂ hiff helements hhandler
  exact ⟨written, ⟨group, list, elements, hgroup, hfield, hlist, hwritten⟩, hown⟩

end SegmentTree

namespace Site

/-- In the document that a site was made from, the handler that answers a request is written in one
place, and the body of its reply is what is written there as its payload: a value, from its first
byte to its last, and empty only if there is none. -/
theorem body_is_written {document : Bytes} {tree : SegmentTree} {site : Site}
    (hparse : parse document = .ok tree) (hsite : (ofTree tree).1 = .ok site) {path : String}
    {method : Method} {reply : Reply} (hfound : site.lookup path method = .found reply) :
    ∃ root, RootOf document root ∧ ∃ node ∈ tree.nodes, node.path = path ∧
      ∃ written, (∀ other, HandlerAt root node.chain method.text other ↔ other = written) ∧
        (reply.body = [] ↔ ∀ payload, ¬ GivesPayload written payload) ∧
        ∀ payload, GivesPayload written payload →
          reply.body = payload ∧ payload <:+: document ∧ IsValue payload ∧
            StartsVisibly payload ∧ EndsVisibly payload := by
  obtain ⟨root, hroot, hmeans⟩ := exists_root_of_parse hparse
  obtain ⟨hlookup, -⟩ := lookup_reads_tree hsite
  obtain ⟨-, hknown⟩ := hlookup path method
  obtain ⟨node, hfilter, -, hanswer⟩ := hknown (by simp [hfound])
  obtain ⟨handler, own, hlast, hreply, hgives⟩ := hanswer (by simp [hfound])
  obtain rfl : reply = own := Lookup.found.inj (hfound.symm.trans hreply)
  obtain ⟨hnode, hpath⟩ := List.mem_filter.1 (hfilter ▸ List.mem_singleton_self node)
  obtain ⟨written, hwritten, hown⟩ := exists_handlerAt hmeans hnode hlast
  have hvalue {payload : Bytes} (hpayload : GivesPayload written payload) :
      IsValue payload ∧ payload <:+: document := by
    obtain ⟨before, behind, -, -, -, rfl⟩ := hroot
    obtain ⟨hself, hinfix⟩ := hpayload.isInfix
    refine ⟨hself, hinfix.trans (hwritten.isInfix.trans ⟨before, behind, ?_⟩)⟩
    rw [List.append_assoc]
  refine ⟨root, hroot, node, hnode, of_decide_eq_true hpath, written, fun other => ?_, ?_, ?_⟩
  · exact ⟨fun hother => hother.unique hwritten, fun h => h ▸ hwritten⟩
  · rw [hgives.body, Handler.body]
    cases hpayload : handler.payload with
    | none => simp [hown.payload, hpayload]
    | some payload =>
        obtain ⟨b, hb, -⟩ := (hvalue ((hown.payload payload).2 hpayload)).1.startsVisibly
        have hne : payload ≠ [] := by
          rintro rfl
          cases hb
        simp [hown.payload, hpayload, hne]
  · intro payload hpayload
    obtain ⟨hself, hinfix⟩ := hvalue hpayload
    have hbody : reply.body = payload := by
      rw [hgives.body, Handler.body, (hown.payload payload).1 hpayload, Option.getD_some]
    exact ⟨hbody, hinfix, hself, hself.startsVisibly, hself.endsVisibly⟩

/-- A payload with a repeated key, an exponent and uneven blanks, in a handler that is written as a
list. -/
def unevenPayload : Bytes :=
  Text.bytes "\x7b\"b\" : 1e0,\"b\":null\x7d"

/-- A document that gives one method twice. -/
def unevenDocument : Bytes :=
  Text.bytes (" \x7b\"/\":\x7b\"handlers\":[\x7b\"method\":\"GET\",\"status\":500\x7d," ++
    "[\"GET\",200,\x7b\x7d, ") ++ unevenPayload ++ Text.bytes " ]]\x7d\x7d"

theorem body_of_unevenDocument :
    ∃ tree site reply, parse unevenDocument = .ok tree ∧ (ofTree tree).1 = .ok site ∧
      site.lookup "/" ⟨"GET", by decide⟩ = .found reply ∧ reply.body = unevenPayload ∧
      unevenPayload <:+: unevenDocument ∧ StartsVisibly unevenPayload := by
  have hok : (match parse unevenDocument with
      | .error _ => false
      | .ok tree =>
          match (ofTree tree).1 with
          | .error _ => false
          | .ok site =>
              match site.lookup "/" ⟨"GET", by decide⟩ with
              | .found reply => decide (reply.body = unevenPayload)
              | _ => false) = true := by
    decide +kernel
  split at hok
  · cases hok
  · rename_i tree hparse
    split at hok
    · cases hok
    · rename_i site hsite
      split at hok
      · rename_i reply hfound
        have hbody : reply.body = unevenPayload := of_decide_eq_true hok
        obtain ⟨root, -, node, -, -, written, -, hempty, hpayload⟩ :=
          body_is_written hparse hsite hfound
        have hgiven : ¬ ∀ payload, ¬ GivesPayload written payload := by
          rw [← hempty, hbody]
          decide
        obtain ⟨payload, hgives⟩ := not_forall_not.1 hgiven
        obtain ⟨hsame, hinfix, -, hstarts, -⟩ := hpayload payload hgives
        obtain rfl := hbody.symm.trans hsame
        exact ⟨tree, site, reply, hparse, hsite, hfound, hbody, hinfix, hstarts⟩
      · cases hok

end Site

end MockHttp
