import Cohesion.Proofs.LocalScopes
import Mathlib.Data.List.Induction
import Mathlib.Data.List.Nodup
import Mathlib.Data.List.TakeWhile
import Mathlib.Tactic.Use

/-!
# Static imports and calls without an object

A call without an object belongs to the innermost type that declares the method, or else to the
owner of the last static import of the method, or else to the only type of which all members are
imported, or else to the innermost type: `DecidedBy imports scopes method owner`.  The names in the
path of an import are what stands between its dots, `writtenNames`.  They are the identifiers of
the path if nothing else stands between these, `HasPlainPath`; a blank or a comment beside a dot
becomes part of a name: `receiver_of_unqualified_call`.
-/

namespace Cohesion.Java

/-! ### What a declaration imports -/

/-- What a static import declares: one member of a type, or all of them. -/
inductive StaticImport where
  | member (owner name : String)
  | everything (owner : String)
  deriving DecidableEq

namespace StaticImport

/-- The static import of a path of names, from all members of the last one or of the last one
itself. -/
def ofNames? (names : List String) (isWildcard : Bool) : Option StaticImport :=
  match names.reverse, isWildcard with
  | owner :: _, true => some (.everything owner)
  | name :: owner :: _, false => some (.member owner name)
  | _, _ => none

/-- The name and the owner of a single member. -/
def entry? : StaticImport → Option (String × String)
  | .member owner name => some (name, owner)
  | .everything _ => none

end StaticImport

/-- The path of an import declaration. -/
def importPath? (declaration : Node) : Option Node :=
  (declaration.children.filter fun c =>
    c.kind = "scoped_identifier" || c.kind = "identifier").getLast?

/-- The static import of a declaration, by the names that are read in its path. -/
def staticImport? (names : Node → List String) (declaration : Node) : Option StaticImport :=
  if declaration.children.any (·.kind = "static") then
    (importPath? declaration).bind fun path =>
      StaticImport.ofNames? (names path) (declaration.children.any (·.kind = "asterisk"))
  else none

/-- What stands between the dots of a path. -/
def writtenNames (s : Source) (path : Node) : List String :=
  ((path.text s).toList.splitOn '.').map String.ofList

/-- The identifiers of a path. -/
def identifiers (s : Source) (path : Node) : List String :=
  (path.preorder.filter (·.kind = "identifier")).map (·.text s)

/-- The path of a declaration consists of identifiers with dots between them and nothing else. -/
def HasPlainPath (s : Source) (declaration : Node) : Prop :=
  ∀ path, importPath? declaration = some path →
    identifiers s path ≠ [] ∧ (∀ name ∈ identifiers s path, '.' ∉ name.toList)
      ∧ path.text s = ".".intercalate (identifiers s path)

/-- In a plain path the names are the identifiers. -/
theorem staticImport?_of_hasPlainPath {s : Source} {declaration : Node}
    (h : HasPlainPath s declaration) :
  staticImport? (writtenNames s) declaration = staticImport? (identifiers s) declaration
  := by
  rw [staticImport?, staticImport?]
  cases hpath : importPath? declaration with
  | none => rw [Option.bind_none, Option.bind_none]
  | some path =>
    obtain ⟨hne, hdots, htext⟩ := h path hpath
    have hnames : writtenNames s path = identifiers s path := by
      have hdot : ".".toList = ['.'] := rfl
      have hsplit : (['.'].intercalate ((identifiers s path).map String.toList)).splitOn '.'
          = (identifiers s path).map String.toList := by
        apply List.splitOn_intercalate
        · intro _ hmem
          obtain ⟨name, hname, rfl⟩ := List.mem_map.mp hmem
          apply hdots name hname
        · rw [ne_eq, List.map_eq_nil_iff]
          apply hne
      rw [writtenNames, htext, String.toList_intercalate, hdot, hsplit, List.map_map]
      simp
    rw [Option.bind_some, Option.bind_some, hnames]

/-! ### The index of imports -/

/-- A path without dots has one name, and no owner stands before it. -/
theorem splitOn_of_not_mem {path : List Char} (h : '.' ∉ path) :
  path.splitOn '.' = [path] ∧ lastSegment path = path ∧ qualifier? path = none
  := by
  have hne : ∀ c ∈ path.reverse, c ≠ '.' := by
    intro c hc
    apply ne_of_mem_of_not_mem (List.mem_reverse.mp hc) h
  use List.splitOn_eq_singleton h
  constructor
  · rw [lastSegment, List.takeWhile_eq_self_iff.mpr (by simpa using hne), List.reverse_reverse]
  · rw [qualifier?, List.dropWhile_eq_nil_iff.mpr (by simpa using hne)]

/-- In a path with dots the last name stands behind the last one. -/
theorem exists_qualifier?_of_mem {path : List Char} (h : '.' ∈ path) :
  ∃ before, qualifier? path = some before
    ∧ path.splitOn '.' = before.splitOn '.' ++ [lastSegment path]
  := by
  obtain ⟨last, before, hpath, hlast⟩ := List.eq_append_cons_of_mem (List.mem_reverse.mpr h)
  have hne : ∀ c ∈ last, c ≠ '.' := fun c hc => ne_of_mem_of_not_mem hc hlast
  have htake : path.reverse.takeWhile (· ≠ '.') = last := by
    rw [hpath, List.takeWhile_append_of_pos (by simpa using hne)]
    simp
  have hdrop : path.reverse.dropWhile (· ≠ '.') = '.' :: before := by
    rw [hpath, List.dropWhile_append_of_pos (by simpa using hne)]
    simp
  have hwhole : path = before.reverse ++ '.' :: last.reverse := by
    rw [← List.reverse_reverse path, hpath]
    simp
  use before.reverse
  constructor
  · rw [qualifier?, hdrop]
  · rw [lastSegment, htake, hwhole, List.splitOn_append_cons_self,
      List.splitOn_eq_singleton (mt List.mem_reverse.mp hlast)]

/-- The names of a path end in its last segment. -/
theorem exists_splitOn_eq (path : List Char) :
  ∃ before, path.splitOn '.' = before ++ [lastSegment path]
  := by
  by_cases h : '.' ∈ path
  · obtain ⟨before, -, hsplit⟩ := exists_qualifier?_of_mem h
    use before.splitOn '.'
  · obtain ⟨hsplit, hlast, -⟩ := splitOn_of_not_mem h
    use []
    rw [hsplit, hlast]
    rfl

/-- The index holds some static imports: single members with the latest one first, and each type of
which everything is imported once. -/
structure Holds (index : Imports) (imports : List StaticImport) : Prop where
  members_eq : index.members = (imports.filterMap StaticImport.entry?).reverse
  mem_wildcardOwners_iff : ∀ owner, owner ∈ index.wildcardOwners ↔ .everything owner ∈ imports
  nodup : index.wildcardOwners.Nodup

variable {index : Imports} {imports imports' : List StaticImport}

theorem holds_empty :
  Holds .empty []
  := by
  constructor
  · rfl
  · intro owner
    simp [Imports.empty]
  · apply List.nodup_nil

/-- One more import is held if it is one. -/
theorem Holds.add (h : Holds index imports) (path : List Char) (isWildcard : Bool) :
  Holds (index.add path isWildcard) (imports
    ++ (StaticImport.ofNames? ((path.splitOn '.').map String.ofList) isWildcard).toList)
  := by
  obtain ⟨hmembers, howners, hnodup⟩ := h
  cases isWildcard with
  | true =>
    obtain ⟨before, hsplit⟩ := exists_splitOn_eq path
    have hnew : StaticImport.ofNames? ((path.splitOn '.').map String.ofList) true
        = some (.everything (String.ofList (lastSegment path))) := by
      simp [hsplit, StaticImport.ofNames?]
    rw [hnew, Imports.add, if_pos rfl]
    dsimp only
    -- A type of which everything is imported already is not listed again.
    split
    · rename_i hmem
      constructor
      · simp [hmembers, StaticImport.entry?]
      · intro owner
        rw [howners]
        simp only [Option.toList_some, List.mem_append, List.mem_singleton]
        constructor
        · exact Or.inl
        · rintro (h | h)
          · exact h
          · rw [StaticImport.everything.inj h, ← howners]
            exact hmem
      · exact hnodup
    · rename_i hmem
      constructor
      · simp [hmembers, StaticImport.entry?]
      · intro owner
        simp [howners]
      · rw [List.nodup_append]
        use hnodup, List.nodup_singleton _
        intro a ha b hb
        rw [List.mem_singleton.mp hb]
        apply ne_of_mem_of_not_mem ha hmem
  | false =>
    by_cases hdot : '.' ∈ path
    · obtain ⟨before, hqualifier, hsplit⟩ := exists_qualifier?_of_mem hdot
      obtain ⟨rest, hbefore⟩ := exists_splitOn_eq before
      have hnew : StaticImport.ofNames? ((path.splitOn '.').map String.ofList) false
          = some (.member (String.ofList (lastSegment before))
            (String.ofList (lastSegment path))) := by
        simp [hsplit, hbefore, StaticImport.ofNames?]
      rw [hnew, Imports.add, if_neg Bool.false_ne_true, hqualifier]
      constructor
      · simp [hmembers, StaticImport.entry?]
      · intro owner
        simp [howners]
      · exact hnodup
    · -- A path of one name belongs to no type, and both sides leave it out.
      obtain ⟨hsplit, -, hqualifier⟩ := splitOn_of_not_mem hdot
      have hnew : StaticImport.ofNames? ((path.splitOn '.').map String.ofList) false = none := by
        simp [hsplit, StaticImport.ofNames?]
      rw [hnew, Imports.add, if_neg Bool.false_ne_true, hqualifier, Option.toList_none,
        List.append_nil]
      use hmembers, howners, hnodup

/-- The static import of a declaration is read off its path, cut at the dots. -/
theorem staticImport?_writtenNames (s : Source) (declaration : Node) :
  staticImport? (writtenNames s) declaration
    = (Imports.staticPath? s declaration).bind fun (path, isWildcard) =>
      StaticImport.ofNames? ((path.splitOn '.').map String.ofList) isWildcard
  := by
  rw [staticImport?, Imports.staticPath?, importPath?]
  split
  · rename_i hstatic
    rw [hstatic]
    cases (declaration.children.filter _).getLast? <;> rfl
  · rename_i hstatic
    rw [Bool.not_eq_true] at hstatic
    rw [hstatic]
    rfl

/-- Adding a declaration to an index adds the import it makes. -/
theorem Holds.addDeclaration (h : Holds index imports) (s : Source) (declaration : Node) :
  Holds (index.addDeclaration s declaration)
    (imports ++ (staticImport? (writtenNames s) declaration).toList)
  := by
  rw [Imports.addDeclaration, staticImport?_writtenNames]
  cases Imports.staticPath? s declaration with
  | none => simpa using h
  | some static =>
    obtain ⟨path, isWildcard⟩ := static
    apply h.add

/-- The index of some declarations. -/
def importsOf (s : Source) (declarations : List Node) : Imports :=
  declarations.foldl (Imports.addDeclaration s) .empty

/-- The index of a file is that of the import declarations anywhere in it. -/
theorem ofTree_eq_importsOf (s : Source) (root : Node) :
  Imports.ofTree s root = importsOf s (root.preorder.filter (·.kind = "import_declaration"))
  := rfl

/-- The index of some declarations holds their static imports. -/
theorem holds_importsOf (s : Source) (declarations : List Node) :
  Holds (importsOf s declarations) (declarations.filterMap (staticImport? (writtenNames s)))
  := by
  induction declarations using List.reverseRecOn with
  | nil => apply holds_empty
  | append_singleton declarations declaration ih =>
    have hstep := ih.addDeclaration s declaration
    have hlist : [declaration].filterMap (staticImport? (writtenNames s))
        = (staticImport? (writtenNames s) declaration).toList := by
      cases h : staticImport? (writtenNames s) declaration <;> simp [h]
    rw [importsOf, List.foldl_append, List.filterMap_append, hlist]
    exact hstep

/-! ### The owner of a method -/

/-- The owner of a method that is called without an object. -/
inductive DecidedBy (imports : List StaticImport) (scopes : List TypeScope) (method : String) :
    (owner : String) → Prop
  | declared {inner outer : List TypeScope} {scope : TypeScope} :
      scopes = inner ++ scope :: outer → (∀ t ∈ inner, method ∉ t.methods) →
      method ∈ scope.methods → DecidedBy imports scopes method scope.name
  | imported {before after : List StaticImport} {owner : String} :
      (∀ t ∈ scopes, method ∉ t.methods) → imports = before ++ .member owner method :: after →
      (∀ o, .member o method ∉ after) → DecidedBy imports scopes method owner
  | wildcard {owner : String} : (∀ t ∈ scopes, method ∉ t.methods) →
      (∀ o, .member o method ∉ imports) → .everything owner ∈ imports →
      (∀ o, .everything o ∈ imports → o = owner) → DecidedBy imports scopes method owner
  | enclosing : (∀ t ∈ scopes, method ∉ t.methods) → (∀ o, .member o method ∉ imports) →
      (¬ ∃ owner, .everything owner ∈ imports ∧ ∀ o, .everything o ∈ imports → o = owner) →
      DecidedBy imports scopes method (TypeScope.enclosing scopes)

variable {scopes : List TypeScope} {method owner : String}

/-- The first item of a list that passes a test, if one does. -/
theorem forall_not_or_exists_first {α : Type} (p : α → Prop) (xs : List α) :
  (∀ x ∈ xs, ¬ p x) ∨ ∃ before x after, xs = before ++ x :: after ∧ (∀ y ∈ before, ¬ p y) ∧ p x
  := by
  classical
  cases h : xs.find? (fun x => decide (p x)) with
  | none =>
    left
    simpa using h
  | some x =>
    right
    obtain ⟨hx, before, after, hxs, hbefore⟩ := List.find?_eq_some_iff_append.mp h
    use before, x, after, hxs
    simpa [and_comm] using And.intro hx hbefore

/-- The last item of a list that passes a test, if one does. -/
theorem forall_not_or_exists_last {α : Type} (p : α → Prop) (xs : List α) :
  (∀ x ∈ xs, ¬ p x) ∨ ∃ before x after, xs = before ++ x :: after ∧ (∀ y ∈ after, ¬ p y) ∧ p x
  := by
  obtain h | ⟨before, x, after, hxs, hbefore, hx⟩ := forall_not_or_exists_first p xs.reverse
  · left
    intro x hx
    apply h x (List.mem_reverse.mpr hx)
  · right
    use after.reverse, x, before.reverse
    refine ⟨?_, fun y hy => hbefore y (List.mem_reverse.mp hy), hx⟩
    rw [← List.reverse_reverse xs, hxs]
    simp

/-- Every method has an owner. -/
theorem exists_decidedBy (imports : List StaticImport) (scopes : List TypeScope)
    (method : String) :
  ∃ owner, DecidedBy imports scopes method owner
  := by
  obtain hscopes | ⟨inner, scope, outer, hsplit, hinner, hscope⟩ :=
    forall_not_or_exists_first (method ∈ ·.methods) scopes
  · obtain hnone | ⟨before, _, after, hsplit, hafter, owner, rfl⟩ :=
      forall_not_or_exists_last (∃ o, · = .member o method) imports
    · have hmembers : ∀ o, .member o method ∉ imports := fun o ho => hnone _ ho ⟨o, rfl⟩
      by_cases hone :
          ∃ owner, .everything owner ∈ imports ∧ ∀ o, .everything o ∈ imports → o = owner
      · obtain ⟨owner, hmem, hunique⟩ := hone
        use owner, .wildcard hscopes hmembers hmem hunique
      · refine ⟨_, .enclosing hscopes hmembers hone⟩
    · use owner, .imported hscopes hsplit fun o ho => hafter _ ho ⟨o, rfl⟩
  · use scope.name, .declared hsplit hinner hscope

/-- Among the entries of imports there is none for a method that no single import names. -/
theorem find?_entries_eq_none (h : ∀ o, .member o method ∉ imports) :
  (imports.filterMap StaticImport.entry?).reverse.find? (·.1 = method) = none
  := by
  rw [List.find?_eq_none]
  intro entry hentry
  obtain ⟨i, hi, heq⟩ := List.mem_filterMap.mp (List.mem_reverse.mp hentry)
  cases i with
  | member o name =>
    obtain rfl := Option.some.inj heq
    rw [decide_eq_true_iff]
    rintro rfl
    apply h o hi
  | everything o => cases heq

/-- The last single import of a method names its owner. -/
theorem Holds.ownerOf?_of_last {before after : List StaticImport} (h : Holds index imports)
    (hsplit : imports = before ++ .member owner method :: after)
    (hafter : ∀ o, .member o method ∉ after) :
  index.ownerOf? method = some owner
  := by
  have hentry : (.member owner method :: after).filterMap StaticImport.entry?
      = (method, owner) :: after.filterMap StaticImport.entry? := rfl
  have hfind : index.members.find? (·.1 = method) = some (method, owner) := by
    rw [h.members_eq, hsplit, List.filterMap_append, hentry, List.reverse_append,
      List.reverse_cons, List.append_assoc, List.find?_append, find?_entries_eq_none hafter]
    simp
  rw [Imports.ownerOf?, hfind]

/-- Without single imports the only type of which everything is imported is the owner. -/
theorem Holds.ownerOf?_of_unique (h : Holds index imports)
    (hnone : ∀ o, .member o method ∉ imports) (hmem : .everything owner ∈ imports)
    (hunique : ∀ o, .everything o ∈ imports → o = owner) :
  index.ownerOf? method = some owner
  := by
  have howners : index.wildcardOwners = [owner] := by
    apply List.perm_singleton.mp
    rw [List.perm_ext_iff_of_nodup h.nodup (List.nodup_singleton owner)]
    intro o
    rw [h.mem_wildcardOwners_iff, List.mem_singleton]
    use hunique o
    rintro rfl
    exact hmem
  rw [Imports.ownerOf?, h.members_eq, find?_entries_eq_none hnone, howners]

/-- Without single imports there is no owner if not just one type is imported as a whole. -/
theorem Holds.ownerOf?_of_not_unique (h : Holds index imports)
    (hnone : ∀ o, .member o method ∉ imports)
    (hnot : ¬ ∃ owner, .everything owner ∈ imports ∧ ∀ o, .everything o ∈ imports → o = owner) :
  index.ownerOf? method = none
  := by
  rw [Imports.ownerOf?, h.members_eq, find?_entries_eq_none hnone]
  dsimp only
  split
  · rename_i owner howners
    exfalso
    apply hnot
    use owner
    simp [← h.mem_wildcardOwners_iff, howners]
  · rfl

/-- The innermost type that declares a method is found. -/
theorem find?_scopes_of_declared {inner outer : List TypeScope} {scope : TypeScope}
    (hsplit : scopes = inner ++ scope :: outer) (hinner : ∀ t ∈ inner, method ∉ t.methods)
    (hscope : method ∈ scope.methods) :
  scopes.find? (·.methods.contains method) = some scope
  := by
  rw [List.find?_eq_some_iff_append]
  use by simpa using hscope, inner, outer, hsplit
  intro t ht
  simpa using hinner t ht

/-- A method that no enclosing type declares is found in none of them. -/
theorem find?_scopes_eq_none (h : ∀ t ∈ scopes, method ∉ t.methods) :
  scopes.find? (·.methods.contains method) = none
  := by
  rw [List.find?_eq_none]
  intro t ht
  simpa using h t ht

/-- What a call without an object belongs to is its owner, and nothing else is. -/
theorem decidedBy_iff {e : Surroundings} (h : Holds e.imports imports) :
  DecidedBy imports e.scopes method owner ↔ e.unqualifiedOwner method = owner
  := by
  have howner : ∀ {o}, DecidedBy imports e.scopes method o → e.unqualifiedOwner method = o := by
    rintro o (⟨hsplit, hinner, hscope⟩ | ⟨hscopes, hsplit, hafter⟩
      | ⟨hscopes, hnone, hmem, hunique⟩ | ⟨hscopes, hnone, hnot⟩)
    · rw [Surroundings.unqualifiedOwner, find?_scopes_of_declared hsplit hinner hscope]
    · rw [Surroundings.unqualifiedOwner, find?_scopes_eq_none hscopes,
        h.ownerOf?_of_last hsplit hafter]
      rfl
    · rw [Surroundings.unqualifiedOwner, find?_scopes_eq_none hscopes,
        h.ownerOf?_of_unique hnone hmem hunique]
      rfl
    · rw [Surroundings.unqualifiedOwner, find?_scopes_eq_none hscopes,
        h.ownerOf?_of_not_unique hnone hnot]
      rfl
  use howner
  rintro rfl
  obtain ⟨o, ho⟩ := exists_decidedBy imports e.scopes method
  rw [howner ho]
  exact ho

/-- The order and the repetition of imports do not count unless the method is imported from two
owners. -/
theorem DecidedBy.of_mem_iff (h : DecidedBy imports scopes method owner)
    (hsame : ∀ i, i ∈ imports ↔ i ∈ imports')
    (hone : ∀ o o', .member o method ∈ imports → .member o' method ∈ imports → o = o') :
  DecidedBy imports' scopes method owner
  := by
  obtain ⟨hsplit, hinner, hscope⟩ | ⟨hscopes, hsplit, -⟩
    | ⟨hscopes, hnone, hmem, hunique⟩ | ⟨hscopes, hnone, hnot⟩ := h
  · apply DecidedBy.declared hsplit hinner hscope
  · have hmem : .member owner method ∈ imports := by
      rw [hsplit]
      apply List.mem_append_right _ List.mem_cons_self
    obtain hnone | ⟨before, _, after, hsplit', hafter, o, rfl⟩ :=
      forall_not_or_exists_last (∃ o, · = .member o method) imports'
    · apply absurd ⟨owner, rfl⟩ (hnone _ ((hsame _).mp hmem))
    · have hlast : .member o method ∈ imports := by
        rw [hsame, hsplit']
        apply List.mem_append_right _ List.mem_cons_self
      obtain rfl := hone owner o hmem hlast
      apply DecidedBy.imported hscopes hsplit' fun o ho => hafter _ ho ⟨o, rfl⟩
  · simp only [hsame] at hnone hmem hunique
    apply DecidedBy.wildcard hscopes hnone hmem hunique
  · simp only [hsame] at hnone hnot
    apply DecidedBy.enclosing hscopes hnone hnot

/-! ### Calls without an object -/

/-- A call without an object belongs to the owner of the method by the static imports as they are
written, which are those of the identifiers if all paths are plain.  Any other declarations with the
same static imports lead to the same call, unless the method is imported from two owners. -/
theorem receiver_of_unqualified_call (s : Source) (declarations : List Node)
    (scopes : List TypeScope) (frames : Frames) {n name : Node}
    (hname : n.child? "name" = some name) (hobject : n.child? "object" = none) :
  let written := declarations.filterMap (staticImport? (writtenNames s))
  ∃ call, Surroundings.call? ⟨s, importsOf s declarations, scopes⟩ frames n = some call
    ∧ call.method = name.text s
    ∧ (∀ owner, DecidedBy written scopes call.method owner ↔ call.receiver = owner)
    ∧ ((∀ d ∈ declarations, HasPlainPath s d) → ∀ owner,
      DecidedBy (declarations.filterMap (staticImport? (identifiers s))) scopes call.method owner
        ↔ call.receiver = owner)
    ∧ ∀ declarations' : List Node,
      (∀ i, i ∈ written ↔ i ∈ declarations'.filterMap (staticImport? (writtenNames s))) →
      (∀ o o', .member o call.method ∈ written → .member o' call.method ∈ written → o = o') →
      Surroundings.call? ⟨s, importsOf s declarations', scopes⟩ frames n = some call
  := by
  intro written
  have hcall (ds : List Node) : Surroundings.call? ⟨s, importsOf s ds, scopes⟩ frames n
      = some ⟨name.text s, Surroundings.unqualifiedOwner ⟨s, importsOf s ds, scopes⟩ (name.text s),
        s.lineAt name.label.start⟩ := by
    rw [Surroundings.call?, hname, hobject]
    rfl
  have hdecided (ds : List Node) (owner : String) :
      DecidedBy (ds.filterMap (staticImport? (writtenNames s))) scopes (name.text s) owner
        ↔ Surroundings.unqualifiedOwner ⟨s, importsOf s ds, scopes⟩ (name.text s) = owner :=
    decidedBy_iff (e := ⟨s, importsOf s ds, scopes⟩) (holds_importsOf s ds)
  refine ⟨_, hcall declarations, rfl, hdecided declarations, ?_, ?_⟩
  · intro hplain owner
    have hsame : declarations.filterMap (staticImport? (identifiers s)) = written := by
      apply List.filterMap_congr
      intro d hd
      rw [staticImport?_of_hasPlainPath (hplain d hd)]
    rw [hsame]
    apply hdecided declarations
  · intro declarations' hsame hone
    rw [hcall declarations']
    -- Only which imports are written matters for the owner, and not their order.
    have howner := (hdecided declarations _).mpr rfl
    rw [(hdecided declarations' _).mp (howner.of_mem_iff hsame hone)]

/-- The import of the member `m` of a class in the package `a`.  The class has one letter, which
stands at an offset of the source. -/
def importedMember (owner : Nat) : Node :=
  shadowedNode "import_declaration" "" 0 (owner + 4)
    [.mk ⟨"static", "", 7, 13, false, false⟩ [],
      shadowedNode "scoped_identifier" "" 14 (owner + 3)
        [shadowedNode "scoped_identifier" "scope" 14 (owner + 1)
          [shadowedNode "identifier" "scope" 14 15 [],
            shadowedNode "identifier" "name" owner (owner + 1) []],
          shadowedNode "identifier" "name" (owner + 2) (owner + 3) []]]

/-- The call `m()` at an offset of the source. -/
def importedCall (start : Nat) : Node :=
  shadowedNode "method_invocation" "" start (start + 3)
    [shadowedNode "identifier" "name" start (start + 1) []]

/-- In a class that does not declare it, an imported method belongs to the class it comes from, also
if it is imported twice. -/
theorem receiver_of_unqualified_call_imported :
  let s : Source := .ofBytes "import static a.C.m;m()".toUTF8
  let scopes : List TypeScope := [⟨"T", none, [], ["f"]⟩]
  let n := importedCall 20
  n.child? "name" = some (shadowedNode "identifier" "name" 20 21 []) ∧ n.child? "object" = none
    ∧ (∀ d ∈ [importedMember 16], HasPlainPath s d)
    ∧ DecidedBy [.member "C" "m"] scopes "m" "C"
    ∧ Surroundings.call? ⟨s, importsOf s [importedMember 16], scopes⟩ .start n
      = some ⟨"m", "C", 0⟩
    ∧ Surroundings.call? ⟨s, importsOf s [importedMember 16, importedMember 16], scopes⟩ .start n
      = some ⟨"m", "C", 0⟩
  := by
  intro s scopes n
  have hplain : ∀ d ∈ [importedMember 16], HasPlainPath s d := by
    intro d hd path hpath
    rw [List.mem_singleton.mp hd] at hpath
    obtain rfl := Option.some.inj hpath
    decide +kernel
  have hcall : Surroundings.call? ⟨s, importsOf s [importedMember 16], scopes⟩ .start n
      = some ⟨"m", "C", 0⟩ := by decide +kernel
  have hread : [importedMember 16].filterMap (staticImport? (identifiers s))
      = [.member "C" "m"] := by decide +kernel
  have hwritten : [importedMember 16].filterMap (staticImport? (writtenNames s))
      = [.member "C" "m"] := by decide +kernel
  have hrepeated : [importedMember 16, importedMember 16].filterMap
      (staticImport? (writtenNames s)) = [.member "C" "m", .member "C" "m"] := by decide +kernel
  obtain ⟨call, hfound, -, -, hidentifiers, hothers⟩ :=
    receiver_of_unqualified_call s [importedMember 16] scopes .start (n := n) rfl rfl
  obtain rfl := Option.some.inj (hfound.symm.trans hcall)
  refine ⟨rfl, rfl, hplain, ?_, hcall, ?_⟩
  · rw [← hread]
    apply (hidentifiers hplain "C").mpr rfl
  · apply hothers
    · intro i
      simp [hwritten, hrepeated]
    · intro o o' ho ho'
      simp only [hwritten, List.mem_singleton, StaticImport.member.injEq, and_true] at ho ho'
      rw [ho, ho']

/-- A blank behind a dot becomes a part of the owner's name, so the identifiers of a path do not
decide alone. -/
theorem not_forall_unqualifiedOwner_by_identifiers :
  ¬ ∀ (s : Source) (declarations : List Node) (scopes : List TypeScope) (method owner : String),
    DecidedBy (declarations.filterMap (staticImport? (identifiers s))) scopes method owner →
      Surroundings.unqualifiedOwner ⟨s, importsOf s declarations, scopes⟩ method = owner
  := by
  intro hall
  have hread : [importedMember 17].filterMap
      (staticImport? (identifiers (.ofBytes "import static a. C.m;m()".toUTF8)))
      = [] ++ .member "C" "m" :: [] := by decide +kernel
  have howner := hall (.ofBytes "import static a. C.m;m()".toUTF8) [importedMember 17] [] "m" "C"
    (.imported (by simp) hread (by simp))
  revert howner
  decide +kernel

end Cohesion.Java
