import MockHttp.Http.Target
import MockHttp.Proofs.Text.Pieces
/-!
# Paths in targets

How a target spells a path: perhaps behind a scheme and an authority, and perhaps in front of a
query and a fragment.  Every such spelling is read back to the path it was made of, and what is read
from any target has no character that could not stand in a path.
-/

namespace MockHttp.Target

/-! ## Spellings -/

/-- A path that a target can spell: it starts with a slash, and each of its characters may stand in
a path. -/
structure IsPath (path : String) : Prop where
  slash : ['/'] <+: path.toList
  chars : ∀ c ∈ path.toList, isPathChar c = true

/-- What may stand in front of a path: nothing, or a scheme and an authority. -/
inductive Front : String → Prop
  | nothing : Front ""
  | authority {scheme authority : String} (hscheme : ∀ c ∈ scheme.toList, isSchemeChar c = true)
      (hlength : scheme.length ≤ maxSchemeLength)
      (hauthority : authority? authority.toList = some (authority, []))
      (hsome : authority ≠ "") : Front (scheme ++ "://" ++ authority)

/-- A fragment with whatever it says, or none. -/
inductive Fragment : String → Prop
  | nothing : Fragment ""
  | hash (text : String) : Fragment ("#" ++ text)

/-- What may stand behind a path: a query and a fragment, or either, or neither. -/
inductive Back : String → Prop
  | fragment {fragment : String} (hfragment : Fragment fragment) : Back fragment
  | query {query fragment : String} (hquery : ∀ c ∈ query.toList, isQueryChar c = true)
      (hfragment : Fragment fragment) : Back ("?" ++ query ++ fragment)

/-! ## Reading a spelling -/

theorem Fragment.isFragment {fragment : String} (hfragment : Fragment fragment) :
    isFragment fragment.toList = true := by
  cases hfragment with
  | nothing => rfl
  | hash text =>
      rw [String.toList_append]
      exact decide_eq_true (p := '#' = '#') rfl

theorem Fragment.head? {fragment : String} (hfragment : Fragment fragment) :
    ∀ c ∈ fragment.toList.head?, c = '#' := by
  cases hfragment with
  | nothing => simp
  | hash text => simp

theorem Fragment.stops {fragment : String} (hfragment : Fragment fragment) {p : Char → Bool}
    (hp : p '#' = false) : ∀ c ∈ fragment.toList.head?, p c = false := by
  intro c hc
  rwa [hfragment.head? c hc]

/-- A path ends where what stands behind it begins, and is read with its query. -/
theorem exists_pathAndQuery?_append {path : List Char} (hpath : ∀ c ∈ path, isPathChar c = true)
    {back : String} (hback : Back back) :
    ∃ query, pathAndQuery? (path ++ back.toList) = some (String.ofList path, query) := by
  cases hback with
  | fragment hfragment =>
      have hstop : ∀ c ∈ back.toList.head?, isPathChar c = false := hfragment.stops (by decide)
      refine ⟨none, ?_⟩
      rw [pathAndQuery?, Text.takeWhile_append_stop hpath hstop,
        Text.dropWhile_append_stop hpath hstop]
      split
      · rename_i rest hrest
        have hhead := hfragment.head? '?' (by rw [hrest]; rfl)
        exact absurd hhead (by decide)
      · rw [if_pos hfragment.isFragment]
  | @query query fragment hquery hfragment =>
      have hback :
          ("?" ++ query ++ fragment).toList = '?' :: (query.toList ++ fragment.toList) := by
        simp
      have hstop :
          ∀ c ∈ ('?' :: (query.toList ++ fragment.toList)).head?, isPathChar c = false := by
        simp only [List.head?_cons, Option.mem_some_iff, forall_eq']
        decide
      have hend : ∀ c ∈ fragment.toList.head?, isQueryChar c = false := hfragment.stops (by decide)
      refine ⟨some query, ?_⟩
      rw [hback, pathAndQuery?, Text.takeWhile_append_stop hpath hstop,
        Text.dropWhile_append_stop hpath hstop]
      change (if isFragment ((query.toList ++ fragment.toList).dropWhile isQueryChar) then
        some (String.ofList path,
          some (String.ofList ((query.toList ++ fragment.toList).takeWhile isQueryChar)))
        else none) = _
      rw [Text.takeWhile_append_stop hquery hend, Text.dropWhile_append_stop hquery hend,
        if_pos hfragment.isFragment, String.ofList_toList]

theorem authority?_eq_some_iff {chars rest : List Char} {authority : String} :
    authority? chars = some (authority, rest) ↔
      chars = authority.toList ++ rest ∧ (∀ c ∈ authority.toList, endsAuthority c = false) ∧
        (∀ c ∈ rest.head?, endsAuthority c = true) ∧
          ∃ scan, authority.toList.foldlM AuthorityScan.step? ⟨0, false, false, false, false⟩ =
            some scan ∧ scan.complete = true := by
  rw [authority?, Option.bind_eq_bind, Option.bind_eq_some_iff]
  constructor
  · rintro ⟨scan, hscan, hcomplete⟩
    split at hcomplete
    · rename_i hdone
      obtain ⟨rfl, rfl⟩ := Prod.mk.inj (Option.some.inj hcomplete)
      rw [String.toList_ofList]
      refine ⟨List.takeWhile_append_dropWhile.symm, ?_, ?_, scan, hscan, hdone⟩
      · intro c hc
        simpa using List.all_eq_true.1 List.all_takeWhile c hc
      · intro c hc
        have hhead := List.head?_dropWhile_not (fun c => !endsAuthority c) chars
        rw [Option.mem_def.1 hc] at hhead
        simpa using hhead
    · cases hcomplete
  · rintro ⟨rfl, hchars, hrest, scan, hscan, hdone⟩
    have hchars' : ∀ c ∈ authority.toList, (!endsAuthority c) = true := by simpa using hchars
    have hrest' : ∀ c ∈ rest.head?, (!endsAuthority c) = false := by simpa using hrest
    rw [Text.takeWhile_append_stop hchars' hrest', Text.dropWhile_append_stop hchars' hrest']
    exact ⟨scan, hscan, by rw [if_pos hdone, String.ofList_toList]⟩

/-- An authority ends where a slash begins. -/
theorem authority?_append {authority : String}
    (hauthority : authority? authority.toList = some (authority, [])) {rest : List Char}
    (hrest : ∀ c ∈ rest.head?, endsAuthority c = true) :
    authority? (authority.toList ++ rest) = some (authority, rest) := by
  obtain ⟨-, hchars, -, hscan⟩ := authority?_eq_some_iff.1 hauthority
  exact authority?_eq_some_iff.2 ⟨rfl, hchars, hrest, hscan⟩

theorem opening_append {scheme : List Char} (hscheme : ∀ c ∈ scheme, isSchemeChar c = true)
    (hlength : scheme.length ≤ maxSchemeLength) (rest : List Char) :
    opening (scheme ++ ':' :: '/' :: '/' :: rest) = .scheme (String.ofList scheme) rest := by
  have hstop : ∀ c ∈ (':' :: '/' :: '/' :: rest).head?, isSchemeChar c = false := by
    simp only [List.head?_cons, Option.mem_some_iff, forall_eq']
    decide
  rw [opening, Text.takeWhile_append_stop hscheme hstop, Text.dropWhile_append_stop hscheme hstop]
  exact if_neg (Nat.not_lt.2 hlength)

theorem parse?_of_slash {text : String} (hsize : text.utf8ByteSize ≤ maxLength) {rest : List Char}
    (htext : text.toList = '/' :: rest) :
    parse? text = (pathAndQuery? text.toList).map fun part => ⟨none, "", part.1, part.2⟩ := by
  rw [parse?, if_neg (Nat.not_lt.2 hsize), htext]
  split
  · rename_i h
    cases h
  · rename_i h
    cases h
  · rename_i h
    cases h
    cases pathAndQuery? ('/' :: rest) <;> rfl
  · rename_i h
    exact absurd rfl (h rest)

theorem parse?_of_scheme {text : String} (hsize : text.utf8ByteSize ≤ maxLength)
    {scheme authority : String} {chars rest : List Char}
    (hscheme : ∀ c ∈ scheme.toList, isSchemeChar c = true)
    (hlength : scheme.length ≤ maxSchemeLength)
    (htext : text.toList = scheme.toList ++ ':' :: '/' :: '/' :: chars)
    (hauthority : authority? chars = some (authority, rest)) (hsome : authority ≠ "") :
    parse? text = (pathAndQuery? rest).map fun part =>
      ⟨some scheme, authority, if part.1 = "" then "/" else part.1, part.2⟩ := by
  have hopening : opening text.toList = .scheme scheme chars := by
    rw [htext, opening_append hscheme hlength, String.ofList_toList]
  have hhead : ∀ c ∈ text.toList.head?, isSchemeChar c = true ∨ c = ':' := by
    rw [htext]
    cases hchars : scheme.toList with
    | nil => simp
    | cons c chars =>
        have hc : isSchemeChar c = true := hscheme c (hchars ▸ List.mem_cons_self)
        simp [hc]
  rw [parse?, if_neg (Nat.not_lt.2 hsize)]
  -- Neither the lone star nor a slash can be where a scheme is.
  split
  · rename_i hnil
    simp [hnil] at htext
  · rename_i hstar
    exact absurd (hhead '*' (by rw [hstar]; rfl)) (by decide)
  · rename_i hslash
    exact absurd (hhead '/' (by rw [hslash]; rfl)) (by decide)
  · rw [hopening]
    dsimp only
    rw [hauthority, Option.bind_eq_bind, Option.bind_some]
    dsimp only
    rw [if_neg hsome]
    cases pathAndQuery? rest <;> rfl

/-- Any way of spelling a path is read back to it, unless it is longer than a target may be. -/
theorem path_parse? {front path back : String} (hfront : Front front) (hpath : IsPath path)
    (hback : Back back) :
    (parse? (front ++ path ++ back)).map Target.path =
      if (front ++ path ++ back).utf8ByteSize ≤ maxLength then some path else none := by
  split
  · rename_i hsize
    obtain ⟨query, hquery⟩ := exists_pathAndQuery?_append hpath.chars hback
    rw [String.ofList_toList] at hquery
    obtain ⟨rest, hrest⟩ := hpath.slash
    cases hfront with
    | nothing =>
        have htext : ("" ++ path ++ back).toList = path.toList ++ back.toList := by simp
        have hslash : ("" ++ path ++ back).toList = '/' :: (rest ++ back.toList) := by
          rw [htext, ← hrest]
          rfl
        rw [parse?_of_slash hsize hslash, htext, hquery]
        rfl
    | @authority scheme authority hscheme hlength hauthority hsome =>
        have htext : (scheme ++ "://" ++ authority ++ path ++ back).toList =
            scheme.toList ++ ':' :: '/' :: '/' ::
              (authority.toList ++ (path.toList ++ back.toList)) := by
          simp
        have hend : ∀ c ∈ (path.toList ++ back.toList).head?, endsAuthority c = true := by
          rw [← hrest]
          simp only [List.cons_append, List.head?_cons, Option.mem_some_iff, forall_eq']
          decide
        have hne : path ≠ "" := by
          rintro rfl
          cases hrest
        rw [parse?_of_scheme hsize hscheme hlength htext (authority?_append hauthority hend) hsome,
          hquery]
        simp [hne]
  · rename_i hsize
    rw [parse?, if_pos (Nat.lt_of_not_le hsize)]
    rfl

/-! ## Spellings of one path -/

/-- A text that spells a path as a target, with whatever else a target may hold. -/
def Spells (text path : String) : Prop :=
  ∃ front back, Front front ∧ Back back ∧ text = front ++ path ++ back

theorem Spells.path_parse? {text path : String} (hspells : Spells text path) (hpath : IsPath path) :
    (parse? text).map Target.path = if text.utf8ByteSize ≤ maxLength then some path else none := by
  obtain ⟨front, back, hfront, hback, rfl⟩ := hspells
  exact Target.path_parse? hfront hpath hback

theorem Spells.path_eq {text path : String} (hspells : Spells text path) (hpath : IsPath path)
    {target : Target} (hread : parse? text = some target) : target.path = path := by
  have h := hspells.path_parse? hpath
  rw [hread, Option.map_some] at h
  split_ifs at h
  exact Option.some.inj h

theorem Spells.exists_target {text path : String} (hspells : Spells text path)
    (hpath : IsPath path) (hsize : text.utf8ByteSize ≤ maxLength) :
    ∃ target, parse? text = some target ∧ target.path = path := by
  have h := hspells.path_parse? hpath
  rwa [if_pos hsize, Option.map_eq_some_iff] at h

theorem spells_self (path : String) : Spells path path :=
  ⟨"", "", .nothing, .fragment .nothing, by simp⟩

theorem spells_query (path : String) {query : String}
    (hquery : ∀ c ∈ query.toList, isQueryChar c = true) : Spells (path ++ "?" ++ query) path :=
  ⟨"", "?" ++ query ++ "", .nothing, .query hquery .nothing, by simp [String.append_assoc]⟩

theorem front_host : Front ("http" ++ "://" ++ "host") :=
  .authority (List.all_eq_true.1 (by decide)) (by decide) (by decide) (by decide)

theorem spells_absolute (path : String) : Spells ("http://host" ++ path) path :=
  ⟨"http://host", "", front_host, .fragment .nothing, by simp⟩

/-! ## What is read -/

theorem of_pathAndQuery? {chars : List Char} {path : String} {query : Option String}
    (hread : pathAndQuery? chars = some (path, query)) :
    path.toList <+: chars ∧ ∀ c ∈ path.toList, isPathChar c = true := by
  have hpath : path = String.ofList (chars.takeWhile isPathChar) := by
    rw [pathAndQuery?] at hread
    split at hread <;> split_ifs at hread <;>
      exact (Prod.mk.inj (Option.some.inj hread)).1.symm
  rw [hpath, String.toList_ofList]
  exact ⟨List.takeWhile_prefix isPathChar, List.all_eq_true.1 List.all_takeWhile⟩

theorem suffix_of_opening {chars rest : List Char} {scheme : String}
    (hopening : opening chars = .scheme scheme rest) : rest <:+ chars := by
  rw [opening] at hopening
  split at hopening
  · rename_i hdrop
    split_ifs at hopening
    cases hopening
    have hsuffix : ':' :: '/' :: '/' :: rest <:+ chars :=
      hdrop ▸ List.dropWhile_suffix isSchemeChar
    exact (List.suffix_append [':', '/', '/'] rest).trans hsuffix
  · cases hopening

/-- What is read as a path stands in the target, or is the `/` of a target that has none. -/
theorem of_parse? {text : String} {target : Target} (hread : parse? text = some target) :
    text.utf8ByteSize ≤ maxLength ∧ (∀ c ∈ target.path.toList, isPathChar c = true) ∧
      (target.path = "/" ∨ target.path.toList <:+: text.toList) := by
  rw [parse?] at hread
  split_ifs at hread with hsize
  refine ⟨Nat.le_of_not_lt hsize, ?_⟩
  split at hread
  · cases hread
  · rename_i hstar
    cases hread
    rw [hstar]
    exact ⟨List.all_eq_true.1 (by decide), .inr List.infix_rfl⟩
  · rename_i rest hslash
    rw [Option.bind_eq_bind, Option.bind_eq_some_iff] at hread
    obtain ⟨⟨path, query⟩, hpath, hread⟩ := hread
    cases hread
    obtain ⟨hstart, hchars⟩ := of_pathAndQuery? hpath
    exact ⟨hchars, .inr (hslash ▸ hstart.isInfix)⟩
  · split at hread
    · cases hread
    · rw [Option.bind_eq_bind, Option.bind_eq_some_iff] at hread
      obtain ⟨⟨authority, rest⟩, -, hread⟩ := hread
      dsimp only at hread
      split_ifs at hread
      cases hread
      exact ⟨by simp, .inr (List.nil_infix)⟩
    · rename_i scheme chars hopening
      rw [Option.bind_eq_bind, Option.bind_eq_some_iff] at hread
      obtain ⟨⟨authority, rest⟩, hauthority, hread⟩ := hread
      dsimp only at hread
      split_ifs at hread
      rw [Option.bind_eq_bind, Option.bind_eq_some_iff] at hread
      obtain ⟨⟨path, query⟩, hpath, hread⟩ := hread
      cases hread
      dsimp only
      split_ifs
      · exact ⟨List.all_eq_true.1 (by decide), .inl rfl⟩
      · obtain ⟨hstart, hchars⟩ := of_pathAndQuery? hpath
        have hrest : rest <:+ chars := ⟨_, (authority?_eq_some_iff.1 hauthority).1.symm⟩
        have hsuffix := hrest.trans (suffix_of_opening hopening)
        exact ⟨hchars, .inr (hstart.isInfix.trans hsuffix.isInfix)⟩

end MockHttp.Target
