import Cohesion.Files.Environment
import Mathlib.Data.List.Induction

/-!
# Walks through file trees

`FileTree.Leads` says where names lead from a location and through how many links.  This is what
`FileTree.follow` finds if it may go through that many, `FileTree.follow_eq_found_iff`, and names lead to
one place at most, `Leads.unique`.  A tree with fewer entries leads to fewer places, `Leads.of_isWithin`.
What is taken away without any directory or any link to one leaves every way to a directory as it is,
`Leads.of_isPruned`.  In a tree whose entries are all in directories, the path of a location leads to it.
-/

namespace Cohesion

/-! ### Paths -/

namespace Path

variable {base name : String}

/-- A slash between two texts separates the names of the one from the names of the other. -/
theorem names_slash (a b : String) :
  names (a ++ "/" ++ b) = names a ++ names b
  := by
  have htext : (a ++ "/" ++ b).toList = a.toList ++ '/' :: b.toList := by simp
  rw [names, htext, List.splitOn_append_cons_self, List.map_append, names, names]

theorem names_of_not_mem (hname : '/' ∉ name.toList) :
  names name = [name]
  := by
  rw [names, List.splitOn_eq_singleton hname, List.map_singleton, String.ofList_toList]

theorem names_concat_slash (front : String) :
  names (front ++ "/") = names front ++ [""]
  := by
  rw [← String.append_empty (s := front ++ "/"), names_slash]
  rfl

theorem isAbsolute_eq_false (hname : '/' ∉ name.toList) :
  isAbsolute name = false
  := by
  rw [isAbsolute, decide_eq_false_iff_not]
  intro h
  apply hname (List.mem_of_head? h)

/-- A path whose last character is a slash is some front with a slash after it. -/
theorem exists_front_of_getLast? (h : base.toList.getLast? = some '/') :
  ∃ front, base = front ++ "/"
  := by
  obtain ⟨front, hfront⟩ := List.getLast?_eq_some_iff.mp h
  use String.ofList front
  rw [← String.toList_inj, hfront]
  simp

/-- Every name of the second path is a name of the joined path, since joining only adds in front. -/
theorem mem_names_join {path : String} (hname : name ∈ names path) :
  name ∈ names (join base path)
  := by
  rw [join]
  split
  · apply hname
  · split
    · obtain ⟨front, rfl⟩ := exists_front_of_getLast? ‹_›
      rw [names_slash]
      apply List.mem_append_right _ hname
    · rw [names_slash]
      apply List.mem_append_right _ hname

/-- Joining a relative path keeps every name of the base that is not empty. -/
theorem mem_names_join_left {path : String} (hname : name ∈ names base) (hempty : name ≠ "")
  (hpath : isAbsolute path = false) :
  name ∈ names (join base path)
  := by
  have hbase : base ≠ "" := by
    rintro rfl
    apply hempty (List.mem_singleton.mp hname)
  rw [join, hpath, if_neg (by simpa using hbase)]
  split
  · obtain ⟨front, rfl⟩ := exists_front_of_getLast? ‹_›
    rw [names_concat_slash, List.mem_append] at hname
    rw [names_slash]
    apply List.mem_append_left _ (hname.resolve_right (by simpa using hempty))
  · rw [names_slash]
    apply List.mem_append_left _ hname

/-- A name joined to a base is absolute exactly when the base is. -/
theorem isAbsolute_join (hbase : base ≠ "") (hname : '/' ∉ name.toList) :
  isAbsolute (join base name) = isAbsolute base
  := by
  obtain ⟨c, cs, hlist⟩ := List.exists_cons_of_ne_nil (by simpa using hbase : base.toList ≠ [])
  rw [join, isAbsolute_eq_false hname, if_neg (by simpa using hbase)]
  split <;> simp [isAbsolute, hlist]

end Path

/-- Whether something is a link. -/
def FileNode.isLink : FileNode → Bool
  | .link _ _ => true
  | _ => false

theorem FileNode.not_isLink {node : FileNode}
  (h : ∀ target days, node = .link target days → False) :
  ¬ node.isLink
  := by
  cases node with
  | file | directory => exact Bool.false_ne_true
  | link target days => exact (h target days rfl).elim

namespace FileTree

variable {t t' : FileTree} {here middle l l' : Location} {name : String}
  {names rest xs ys : List String} {node : FileNode} {links k k' : Nat}

/-! ### Entries -/

/-- Dropping the entries of one location leaves every other look-up as it was. -/
theorem lookup_filter_ne (entries : List (Location × FileNode)) (l l' : Location) :
  (entries.filter (·.1 ≠ l)).lookup l' = if l' = l then none else entries.lookup l'
  := by
  induction entries with
  | nil => rw [List.filter_nil, List.lookup_nil, ite_self]
  | cons entry entries ih =>
    obtain ⟨k, node⟩ := entry
    rw [List.filter_cons, List.lookup_cons]
    by_cases hk : k = l
    · rw [if_neg (by simpa using hk), ih]
      split
      · rfl
      · rename_i hl
        rw [beq_eq_false_iff_ne.mpr (fun h => hl (h.trans hk))]
    · rw [if_pos (by simpa using hk), List.lookup_cons, ih]
      by_cases hl : l' = k
      · subst hl
        rw [beq_self_eq_true, if_neg hk, if_neg hk]
      · rw [beq_eq_false_iff_ne.mpr hl]

/-- Erasing a location takes away its node and no other. -/
theorem node?_erase (t : FileTree) {l : Location} (hl : l ≠ []) (l' : Location) :
  (t.erase l).node? l' = if l' = l then none else t.node? l'
  := by
  rw [node?, node?, erase, lookup_filter_ne]
  by_cases h : l' = l
  · subst h
    rw [if_pos rfl, if_pos rfl, if_neg (by simpa using hl)]
  · rw [if_neg h, if_neg h]

/-- The node at a location below the root stands in the list of entries. -/
theorem mem_entries_of_node? (h : t.node? l = some node) (hl : l ≠ []) :
  (l, node) ∈ t.entries
  := by
  rw [node?, if_neg (by simpa using hl)] at h
  obtain ⟨front, back, hentries, _⟩ := List.lookup_eq_some_iff.mp h
  rw [hentries]
  simp

/-- A node below a directory is among the names that listing the directory gives. -/
theorem mem_namesIn_of_node? (h : t.node? (l ++ [name]) = some node) :
  name ∈ t.namesIn l
  := by
  rw [namesIn, List.mem_filterMap]
  use (l ++ [name], node), mem_entries_of_node? h (by simp)
  simp

theorem hasDirectory_iff :
  t.hasDirectory l ↔ t.node? l = some .directory
  := by
  rw [hasDirectory]
  split <;> simp_all

/-- A location has a content exactly when a file with that content stands there. -/
theorem content?_eq_some_iff {content : FileContent} :
  t.content? l = some content ↔ ∃ days, t.node? l = some (.file content days)
  := by
  rw [content?]
  split <;> simp_all

/-! ### Where names lead -/

/-- Whether a name is that of an entry, and not a way to stay or to go up. -/
def IsEntryName (name : String) : Prop :=
  Path.counts name ∧ name ≠ ".." ∧ ¬ isTooLong name

/-- Whether a text can be the name of an entry. -/
def IsProperName (name : String) : Prop :=
  IsEntryName name ∧ '/' ∉ name.toList

instance (name : String) : Decidable (IsEntryName name) :=
  inferInstanceAs (Decidable (_ ∧ _ ∧ _))

instance (name : String) : Decidable (IsProperName name) :=
  inferInstanceAs (Decidable (_ ∧ _))

/-- Where the target of a link is looked for. -/
def targetStart (here : Location) (target : String) : Location :=
  if Path.isAbsolute target then [] else here

/-- Names lead from a location to another one, through so many links. -/
inductive Leads (t : FileTree) : Nat → Location → List String → Location → Prop
  | done (here : Location) : Leads t 0 here [] here
  | stay {k : Nat} {here l : Location} {name : String} {rest : List String} : t.hasDirectory here →
      ¬ Path.counts name → Leads t k here rest l → Leads t k here (name :: rest) l
  | up {k : Nat} {here l : Location} {rest : List String} : t.hasDirectory here →
      Leads t k here.dropLast rest l → Leads t k here (".." :: rest) l
  | through {k : Nat} {here l : Location} {name target : String} {days : Nat} {rest : List String} :
      t.hasDirectory here → IsEntryName name → t.node? (here ++ [name]) = some (.link target days) →
      Leads t k (targetStart here target) (Path.names target ++ rest) l →
      Leads t (k + 1) here (name :: rest) l
  | into {k : Nat} {here l : Location} {name : String} {node : FileNode} {rest : List String} :
      t.hasDirectory here → IsEntryName name → t.node? (here ++ [name]) = some node →
      ¬ node.isLink → Leads t k (here ++ [name]) rest l → Leads t k here (name :: rest) l

/-- What following a path finds is led to by that path, within the links it may pass. -/
theorem leads_of_follow (h : t.follow links here names = .found l) :
  ∃ k ≤ links, t.Leads k here names l
  := by
  fun_induction t.follow links here names with
  | case1 links here =>
    cases h
    exact ⟨0, Nat.zero_le links, .done _⟩
  | case3 links here name rest hdirectory hcounts ih =>
    obtain ⟨k, hk, hleads⟩ := ih h
    use k, hk, .stay (by simpa using hdirectory) (by simpa using hcounts) hleads
  | case4 links here rest hdirectory hcounts ih =>
    obtain ⟨k, hk, hleads⟩ := ih h
    use k, hk, .up (by simpa using hdirectory) hleads
  | case9 here name rest hdirectory hcounts hup hsize target days hnode links ih =>
    obtain ⟨k, hk, hleads⟩ := ih h
    use k + 1, Nat.succ_le_succ hk,
      .through (by simpa using hdirectory) ⟨by simpa using hcounts, hup, hsize⟩ hnode hleads
  | case10 links here name rest hdirectory hcounts hup hsize node hlink hnode ih =>
    obtain ⟨k, hk, hleads⟩ := ih h
    use k, hk, .into (by simpa using hdirectory) ⟨by simpa using hcounts, hup, hsize⟩ hnode
      (FileNode.not_isLink hlink) hleads
  | _ => cases h

/-- A path that leads somewhere within the links that may be passed is followed to that place. -/
theorem Leads.follow_eq_found (h : t.Leads k here names l) (hk : k ≤ links) :
  t.follow links here names = .found l
  := by
  induction h generalizing links with
  | done => rw [follow]
  | stay hdirectory hcounts _ ih =>
    rw [follow, if_neg (by simpa using hdirectory), if_pos (by simpa using hcounts), ih hk]
  | up hdirectory _ ih =>
    rw [follow, if_neg (by simpa using hdirectory), if_neg (by decide), if_pos rfl, ih hk]
  | through hdirectory hname hnode _ ih =>
    obtain ⟨hcounts, hup, hsize⟩ := hname
    obtain ⟨links, rfl⟩ := Nat.exists_eq_add_of_lt (Nat.lt_of_succ_le hk)
    rw [follow, if_neg (by simpa using hdirectory), if_neg (by simpa using hcounts), if_neg hup,
      if_neg hsize, hnode]
    apply ih (Nat.le_add_right _ _)
  | @into _ _ _ _ node _ hdirectory hname hnode hlink _ ih =>
    obtain ⟨hcounts, hup, hsize⟩ := hname
    rw [follow, if_neg (by simpa using hdirectory), if_neg (by simpa using hcounts), if_neg hup,
      if_neg hsize, hnode]
    cases node with
    | file | directory => apply ih hk
    | link => exact absurd rfl hlink

/-- Following a path finds exactly the location the path leads to within the links it may pass. -/
theorem follow_eq_found_iff :
  t.follow links here names = .found l ↔ ∃ k ≤ links, t.Leads k here names l
  := by
  constructor
  · apply leads_of_follow
  · rintro ⟨k, hk, h⟩
    apply h.follow_eq_found hk

namespace Leads

/-- A path with a name left to follow leads on only from a directory. -/
theorem hasDirectory (h : t.Leads k here (name :: names) l) :
  t.hasDirectory here
  := by
  cases h with
  | stay h _ _ | up h _ | through h _ _ _ | into h _ _ _ _ => apply h

/-- From what is no directory there is no way to anything else. -/
theorem eq_of_not_hasDirectory (h : t.Leads k here names l) (hdirectory : ¬ t.hasDirectory here) :
  l = here
  := by
  cases names with
  | nil =>
    cases h
    rfl
  | cons name names => exact absurd h.hasDirectory hdirectory

/-- Every name that counts on a way is that of an entry. -/
theorem exists_node? (h : t.Leads k here names l) (hname : name ∈ names) (hentry : IsEntryName name) :
  ∃ directory node, t.node? (directory ++ [name]) = some node
  := by
  induction h with
  | done => cases hname
  | stay _ hcounts _ ih =>
    obtain rfl | hname := List.mem_cons.mp hname
    · exact absurd hentry.1 hcounts
    · apply ih hname
  | up _ _ ih =>
    obtain rfl | hname := List.mem_cons.mp hname
    · exact absurd rfl hentry.2.1
    · apply ih hname
  | through _ _ hnode _ ih =>
    obtain rfl | hname := List.mem_cons.mp hname
    · exact ⟨_, _, hnode⟩
    · apply ih (List.mem_append_right _ hname)
  | into _ _ hnode _ _ ih =>
    obtain rfl | hname := List.mem_cons.mp hname
    · exact ⟨_, _, hnode⟩
    · apply ih hname

/-- A path leads to at most one location, however many links are passed on the way. -/
theorem unique (h : t.Leads k here names l) (h' : t.Leads k' here names l') :
  l = l'
  := by
  -- The node at each name decides which rule applies, so the second walk takes the same one.
  induction h generalizing k' with
  | done =>
    cases h'
    rfl
  | stay _ hcounts _ ih =>
    cases h' with
    | stay _ _ h' => apply ih h'
    | up => exact absurd (by decide) hcounts
    | through _ hname | into _ hname => exact absurd hname.1 hcounts
  | up _ _ ih =>
    cases h' with
    | stay _ hcounts => exact absurd (by decide) hcounts
    | up _ h' => apply ih h'
    | through _ hname | into _ hname => exact absurd rfl hname.2.1
  | through _ hname hnode _ ih =>
    cases h' with
    | stay _ hcounts => exact absurd hname.1 hcounts
    | up => exact absurd rfl hname.2.1
    | through _ _ hnode' h' =>
      rw [hnode] at hnode'
      cases hnode'
      apply ih h'
    | into _ _ hnode' hlink =>
      rw [hnode] at hnode'
      cases hnode'
      exact absurd rfl hlink
  | into _ hname hnode hlink _ ih =>
    cases h' with
    | stay _ hcounts => exact absurd hname.1 hcounts
    | up => exact absurd rfl hname.2.1
    | through _ _ hnode' =>
      rw [hnode] at hnode'
      cases hnode'
      exact absurd rfl hlink
    | into _ _ _ _ h' => apply ih h'

/-- A name that does not count leads nowhere else. -/
theorem of_cons (h : t.Leads k here (name :: names) l) (hcounts : ¬ Path.counts name) :
  t.Leads k here names l
  := by
  cases h with
  | stay _ _ h => apply h
  | up => exact absurd (by decide) hcounts
  | through _ hname | into _ hname => exact absurd hname.1 hcounts

/-- Two walks, the second starting where the first ends, make one walk over both lists of names. -/
theorem append (h : t.Leads k here xs middle) (h' : t.Leads k' middle ys l) :
  t.Leads (k + k') here (xs ++ ys) l
  := by
  induction h with
  | done => rwa [Nat.zero_add]
  | stay hdirectory hcounts _ ih => apply stay hdirectory hcounts (ih h')
  | up hdirectory _ ih => apply up hdirectory (ih h')
  | through hdirectory hname hnode _ ih =>
    rw [Nat.add_right_comm]
    have hrest := ih h'
    rw [List.append_assoc] at hrest
    apply through hdirectory hname hnode hrest
  | into hdirectory hname hnode hlink _ ih => apply into hdirectory hname hnode hlink (ih h')

/-- A way is a way to some place in the middle and a way from there. -/
theorem exists_middle (h : t.Leads k here (xs ++ ys) l) :
  ∃ k₁ k₂ middle, k = k₁ + k₂ ∧ t.Leads k₁ here xs middle ∧ t.Leads k₂ middle ys l
  := by
  generalize hnames : xs ++ ys = names at h
  induction h generalizing xs with
  | done here =>
    obtain ⟨rfl, rfl⟩ := List.append_eq_nil_iff.mp hnames
    use 0, 0, here, rfl, .done here, .done here
  | @stay k _ _ _ _ hdirectory hcounts h ih =>
    obtain ⟨rfl, rfl⟩ | ⟨xs, rfl, rfl⟩ := List.append_eq_cons_iff.mp hnames
    · exact ⟨0, k, _, (Nat.zero_add k).symm, .done _, stay hdirectory hcounts h⟩
    · obtain ⟨k₁, k₂, middle, hk, hleft, hright⟩ := ih rfl
      use k₁, k₂, middle, hk, stay hdirectory hcounts hleft
  | @up k _ _ _ hdirectory h ih =>
    obtain ⟨rfl, rfl⟩ | ⟨xs, rfl, rfl⟩ := List.append_eq_cons_iff.mp hnames
    · exact ⟨0, k, _, (Nat.zero_add k).symm, .done _, up hdirectory h⟩
    · obtain ⟨k₁, k₂, middle, hk, hleft, hright⟩ := ih rfl
      use k₁, k₂, middle, hk, up hdirectory hleft
  | @through k _ _ _ _ _ _ hdirectory hname hnode h ih =>
    obtain ⟨rfl, rfl⟩ | ⟨xs, rfl, rfl⟩ := List.append_eq_cons_iff.mp hnames
    · exact ⟨0, k + 1, _, (Nat.zero_add (k + 1)).symm, .done _, through hdirectory hname hnode h⟩
    · obtain ⟨k₁, k₂, middle, hk, hleft, hright⟩ := ih (List.append_assoc _ _ _)
      use k₁ + 1, k₂, middle, by omega, through hdirectory hname hnode hleft
  | @into k _ _ _ _ _ hdirectory hname hnode hlink h ih =>
    obtain ⟨rfl, rfl⟩ | ⟨xs, rfl, rfl⟩ := List.append_eq_cons_iff.mp hnames
    · exact ⟨0, k, _, (Nat.zero_add k).symm, .done _, into hdirectory hname hnode hlink h⟩
    · obtain ⟨k₁, k₂, middle, hk, hleft, hright⟩ := ih rfl
      use k₁, k₂, middle, hk, into hdirectory hname hnode hlink hleft

/-- An empty name in the middle makes no difference. -/
theorem skip_iff :
  t.Leads k here (xs ++ "" :: name :: names) l ↔ t.Leads k here (xs ++ name :: names) l
  := by
  constructor
  · intro h
    obtain ⟨k₁, k₂, middle, rfl, hleft, hright⟩ := h.exists_middle
    apply hleft.append (hright.of_cons (by decide))
  · intro h
    obtain ⟨k₁, k₂, middle, rfl, hleft, hright⟩ := h.exists_middle
    apply hleft.append (stay hright.hasDirectory (by decide) hright)

end Leads

/-- Whether no entry of a tree is a link. -/
def HasNoLinks (t : FileTree) : Prop :=
  ∀ entry ∈ t.entries, ¬ entry.2.isLink

instance (t : FileTree) : Decidable t.HasNoLinks :=
  inferInstanceAs (Decidable (∀ entry ∈ t.entries, _))

/-- Without links, names of entries lead where they say. -/
theorem Leads.eq_append (hlinks : t.HasNoLinks) (h : t.Leads k here names l)
  (hnames : ∀ name ∈ names, IsEntryName name) :
  l = here ++ names
  := by
  induction h with
  | done => rw [List.append_nil]
  | stay _ hcounts => exact absurd (hnames _ List.mem_cons_self).1 hcounts
  | up => exact absurd rfl (hnames _ List.mem_cons_self).2.1
  | through _ _ hnode => exact absurd rfl (hlinks _ (mem_entries_of_node? hnode (by simp)))
  | into _ _ _ _ _ ih =>
    rw [ih fun name hname => hnames name (List.mem_cons_of_mem _ hname), List.append_assoc,
      List.singleton_append]

/-! ### Trees with fewer entries -/

/-- A tree has no entries but those of another one. -/
def IsWithin (t' t : FileTree) : Prop :=
  ∀ l node, t'.node? l = some node → t.node? l = some node

theorem IsWithin.refl (t : FileTree) :
  t.IsWithin t
  := fun _ _ h => h

/-- A tree within another stays within it when a location is erased. -/
theorem IsWithin.erase (h : t'.IsWithin t) (hl : l ≠ []) :
  (t'.erase l).IsWithin t
  := by
  intro l' node hnode
  rw [node?_erase t' hl] at hnode
  split at hnode
  · cases hnode
  · apply h l' node hnode

/-- Every directory of a tree is a directory of the tree it is within. -/
theorem IsWithin.hasDirectory (h : t'.IsWithin t) (hdirectory : t'.hasDirectory l) :
  t.hasDirectory l
  := hasDirectory_iff.mpr (h l _ (hasDirectory_iff.mp hdirectory))

/-- A tree leads wherever a tree with fewer entries leads. -/
theorem Leads.of_isWithin (hwithin : t'.IsWithin t) (h : t'.Leads k here names l) :
  t.Leads k here names l
  := by
  induction h with
  | done here => apply done
  | stay hdirectory hcounts _ ih => apply stay (hwithin.hasDirectory hdirectory) hcounts ih
  | up hdirectory _ ih => apply up (hwithin.hasDirectory hdirectory) ih
  | through hdirectory hname hnode _ ih =>
    apply through (hwithin.hasDirectory hdirectory) hname (hwithin _ _ hnode) ih
  | into hdirectory hname hnode hlink _ ih =>
    apply into (hwithin.hasDirectory hdirectory) hname (hwithin _ _ hnode) hlink ih

/-- Whether an entry of a directory is no directory, and no link to one. -/
def IsDeadEnd (t : FileTree) (here : Location) : FileNode → Prop
  | .file _ _ => True
  | .directory => False
  | .link target _ =>
    ∃ k l, t.Leads k (targetStart here target) (Path.names target) l ∧ ¬ t.hasDirectory l

/-- A tree has all entries of another one that are no dead ends there. -/
def IsPruned (t' t : FileTree) : Prop :=
  ∀ here name node, t.node? (here ++ [name]) = some node → ¬ t.IsDeadEnd here node →
    t'.node? (here ++ [name]) = some node

/-- Pruning a tree takes no directory away. -/
theorem IsPruned.hasDirectory (h : t'.IsPruned t) (hdirectory : t.hasDirectory l) :
  t'.hasDirectory l
  := by
  rw [hasDirectory_iff] at *
  induction l using List.reverseRecOn with
  | nil => rfl
  | append_singleton here name => apply h here name _ hdirectory not_false

/-- A tree without dead ends leads to all directories as before. -/
theorem Leads.of_isPruned (hpruned : t'.IsPruned t) (h : t.Leads k here names l)
  (hdirectory : t.hasDirectory l) :
  t'.Leads k here names l
  := by
  induction h with
  | done here => apply done
  | stay hhere hcounts _ ih => apply stay (hpruned.hasDirectory hhere) hcounts (ih hdirectory)
  | up hhere _ ih => apply up (hpruned.hasDirectory hhere) (ih hdirectory)
  | through hhere hname hnode h ih =>
    apply through (hpruned.hasDirectory hhere) hname (hpruned _ _ _ hnode _) (ih hdirectory)
    -- the way goes on from where the link leads, so this is a directory
    rintro ⟨_, l', hl', hdead⟩
    obtain ⟨_, _, middle, _, hmiddle, hrest⟩ := h.exists_middle
    obtain rfl := hmiddle.unique hl'
    obtain rfl := hrest.eq_of_not_hasDirectory hdead
    contradiction
  | @into _ here _ name node _ hhere hname hnode hlink h ih =>
    apply into (hpruned.hasDirectory hhere) hname (hpruned _ _ _ hnode _) hlink (ih hdirectory)
    intro hdead
    cases node with
    | file content days =>
      have hfile : ¬ t.hasDirectory (here ++ [name]) := by simp [hasDirectory_iff, hnode]
      obtain rfl := h.eq_of_not_hasDirectory hfile
      contradiction
    | directory => apply hdead
    | link => apply hlink rfl

/-! ### What is below a path -/

/-- To go to a name below a path is to go to the path and then to the name. -/
theorem leads_names_join_iff {base name : String} (hbase : base ≠ "") (hname : '/' ∉ name.toList) :
  t.Leads k here (Path.names (Path.join base name)) l ↔ t.Leads k here (Path.names base ++ [name]) l
  := by
  rw [Path.join, Path.isAbsolute_eq_false hname, if_neg (by simpa using hbase)]
  split
  · obtain ⟨front, rfl⟩ := Path.exists_front_of_getLast? ‹_›
    rw [Path.names_slash, Path.names_of_not_mem hname, Path.names_concat_slash, List.append_assoc,
      List.singleton_append, Leads.skip_iff]
  · rw [Path.names_slash, Path.names_of_not_mem hname]

/-- A path is located exactly where it leads, when the path has no fault and passes no more links
than allowed. -/
theorem locate?_eq_some_iff {path : String} :
  t.locate? here path = some l ↔
    pathFault? path = none ∧
      ∃ k ≤ maxLinks, t.Leads k (targetStart here path) (Path.names path) l
  := by
  rw [← follow_eq_found_iff, locate?, resolve, followPath, targetStart]
  cases pathFault? path with
  | some fault => simp
  | none => cases t.follow maxLinks (if Path.isAbsolute path then [] else here) (Path.names path) <;> simp

/-- A path is that of a directory exactly when it is located at one. -/
theorem isDirectory_iff {path : String} :
  t.isDirectory here path ↔ ∃ l, t.locate? here path = some l ∧ t.hasDirectory l
  := by
  rw [isDirectory]
  cases t.locate? here path <;> simp

theorem ne_empty_of_pathFault? {path : String} (h : pathFault? path = none) :
  path ≠ ""
  := by
  rintro rfl
  cases h

/-- Nothing is found if there is no entry with one of the names. -/
theorem locate?_eq_none {path : String} (hname : name ∈ Path.names path) (hentry : IsEntryName name)
  (habsent : ∀ directory, t.node? (directory ++ [name]) = none) :
  t.locate? here path = none
  := by
  by_contra h
  obtain ⟨l, hl⟩ := Option.ne_none_iff_exists'.mp h
  obtain ⟨_, _, _, hleads⟩ := locate?_eq_some_iff.mp hl
  obtain ⟨directory, node, hnode⟩ := hleads.exists_node? hname hentry
  rw [habsent directory] at hnode
  cases hnode

section

variable {path : String} (hpath : t.locate? here path = some l)

include hpath

/-- A name below a path leads where it leads from the location of the path. -/
theorem exists_leads_of_locate?_join (hname : '/' ∉ name.toList)
  (h : t.locate? here (Path.join path name) = some l') :
  ∃ k, t.Leads k l [name] l'
  := by
  obtain ⟨hfault, _, _, hleads⟩ := locate?_eq_some_iff.mp hpath
  obtain ⟨_, _, _, hjoin⟩ := locate?_eq_some_iff.mp h
  have hempty := ne_empty_of_pathFault? hfault
  rw [targetStart, Path.isAbsolute_join hempty hname, leads_names_join_iff hempty hname] at hjoin
  obtain ⟨_, k, middle, _, hmiddle, hlast⟩ := hjoin.exists_middle
  obtain rfl := hleads.unique hmiddle
  use k

/-- What is in the directory of a path is found below the path. -/
theorem locate?_join (hdirectory : t.hasDirectory l) (hname : IsProperName name)
  (hnode : t.node? (l ++ [name]) = some node) (hlink : ¬ node.isLink)
  (hfault : pathFault? (Path.join path name) = none) :
  t.locate? here (Path.join path name) = some (l ++ [name])
  := by
  obtain ⟨hfault', k, hk, hleads⟩ := locate?_eq_some_iff.mp hpath
  have hempty := ne_empty_of_pathFault? hfault'
  apply locate?_eq_some_iff.mpr ⟨hfault, k, hk, _⟩
  rw [targetStart, Path.isAbsolute_join hempty hname.2, leads_names_join_iff hempty hname.2]
  apply hleads.append (.into hdirectory hname.1 hnode hlink (.done _))

end

/-! ### The paths of locations -/

/-- Whether all entries have proper names and are in directories. -/
def IsTree (t : FileTree) : Prop :=
  ∀ entry ∈ t.entries, t.hasDirectory entry.1.dropLast ∧ ∀ name ∈ entry.1, IsProperName name

instance (t : FileTree) : Decidable t.IsTree :=
  inferInstanceAs (Decidable (∀ entry ∈ t.entries, _ ∧ _))

namespace IsTree

variable (htree : t.IsTree)

include htree

/-- Every name in the location of a node is a proper name. -/
theorem isProperName (hnode : t.node? l = some node) (hname : name ∈ l) :
  IsProperName name
  := by
  have hentry := mem_entries_of_node? hnode (List.ne_nil_of_mem hname)
  apply (htree _ hentry).2 name hname

/-- What is above something is a directory. -/
theorem hasDirectory_of_append (hdirectory : t.hasDirectory (l ++ names)) :
  t.hasDirectory l
  := by
  induction names using List.reverseRecOn with
  | nil => rwa [List.append_nil] at hdirectory
  | append_singleton names name ih =>
    have hentry := mem_entries_of_node? (hasDirectory_iff.mp hdirectory) (by simp)
    have habove := (htree _ hentry).1
    rw [← List.append_assoc, List.dropLast_concat] at habove
    apply ih habove

/-- Every location above an entry is a directory. -/
theorem hasDirectory_of_mem_entries (hentry : (l ++ names, node) ∈ t.entries) (hnames : names ≠ []) :
  t.hasDirectory l
  := by
  have habove := (htree _ hentry).1
  rw [List.dropLast_append_of_ne_nil hnames] at habove
  apply htree.hasDirectory_of_append habove

/-- On the way to what is no link there is no link. -/
theorem exists_node?_of_append (hnode : t.node? (l ++ names) = some node) (hlink : ¬ node.isLink) :
  ∃ node, t.node? l = some node ∧ ¬ node.isLink
  := by
  by_cases hnames : names = []
  · rw [hnames, List.append_nil] at hnode
    use node
  · have hentry := mem_entries_of_node? hnode (by simp [hnames])
    use .directory, hasDirectory_iff.mp (htree.hasDirectory_of_mem_entries hentry hnames)
    exact Bool.false_ne_true

/-- The names on the way to what is no link lead to it. -/
theorem leads_append (hnode : t.node? (l ++ names) = some node) (hlink : ¬ node.isLink) :
  t.Leads 0 l names (l ++ names)
  := by
  induction names generalizing l with
  | nil =>
    rw [List.append_nil]
    apply Leads.done
  | cons name names ih =>
    have hentry := mem_entries_of_node? hnode (by simp)
    have hl := htree.hasDirectory_of_mem_entries hentry (by simp)
    have hname := ((htree _ hentry).2 name (by simp)).1
    rw [List.append_cons] at hnode ⊢
    obtain ⟨next, hnext, hplain⟩ := htree.exists_node?_of_append hnode hlink
    apply Leads.into hl hname hnext hplain (ih hnode)

/-- The names of a node's location lead to it from the root, unless it is a link. -/
theorem leads_location (hnode : t.node? l = some node) (hlink : ¬ node.isLink) :
  t.Leads 0 [] l l
  := by
  rw [← List.nil_append l] at hnode
  apply htree.leads_append hnode hlink

end IsTree

/-- The names of a location's path are the location itself, after the empty name in front of the
first slash. -/
theorem names_path (hl : l ≠ []) (hproper : ∀ name ∈ l, IsProperName name) :
  Path.names l.path = "" :: l
  := by
  have hslash : "/".toList = ['/'] := rfl
  have hnames : Path.names ("/".intercalate l) = l := by
    rw [Path.names, String.toList_intercalate, hslash, List.splitOn_intercalate, List.map_map]
    · simp
    · intro cs hcs
      obtain ⟨name, hname, rfl⟩ := List.mem_map.mp hcs
      apply (hproper name hname).2
    · simpa using hl
  have hpath : l.path = "" ++ "/" ++ "/".intercalate l := by rw [Location.path, String.empty_append]
  rw [hpath, Path.names_slash, hnames]
  rfl

/-- The names of a relative path below a location. -/
theorem names_join_path {path : String} (hproper : ∀ name ∈ l, IsProperName name)
  (hpath : Path.isAbsolute path = false) :
  Path.names (Path.join l.path path) = "" :: (l ++ Path.names path)
  := by
  have hempty : l.path ≠ "" := by simp [Location.path]
  rw [Path.join, hpath, if_neg (by simpa using hempty)]
  by_cases hl : l = []
  · subst hl
    rw [if_pos (by decide), (by decide : Location.path [] = "" ++ "/"), Path.names_slash]
    rfl
  · rw [if_neg, Path.names_slash, names_path hl hproper, List.cons_append]
    -- a slash at the end would make the last name empty
    intro hlast
    obtain ⟨front, hfront⟩ := Path.exists_front_of_getLast? hlast
    have hnames := names_path hl hproper
    rw [hfront, Path.names_concat_slash] at hnames
    have hend := congrArg List.getLast? hnames
    rw [List.getLast?_concat, List.getLast?_cons_of_ne_nil hl] at hend
    exact absurd (hproper _ (List.mem_of_getLast? hend.symm)) (by decide)

/-- An empty name in front, as absolute paths have it, does not change where a path leads. -/
theorem leads_root_iff :
  t.Leads k [] ("" :: names) l ↔ t.Leads k [] names l
  := by
  constructor
  · intro h
    apply h.of_cons (by decide)
  · apply Leads.stay rfl (by decide)

theorem isAbsolute_path (l : Location) :
  Path.isAbsolute l.path
  := by simp [Path.isAbsolute, Location.path]

theorem isAbsolute_join_path {path : String} :
  Path.isAbsolute (Path.join l.path path)
  := by
  have habsolute := isAbsolute_path l
  rw [Path.join]
  split
  · simp_all [Location.path]
  · split <;> simp [Path.isAbsolute, Location.path]

section

variable (htree : t.IsTree)

include htree

/-- The path of a node that is no link locates that node, whatever the working directory. -/
theorem locate?_path (hfault : pathFault? l.path = none) (hnode : t.node? l = some node)
  (hlink : ¬ node.isLink) :
  t.locate? here l.path = some l
  := by
  apply locate?_eq_some_iff.mpr ⟨hfault, 0, Nat.zero_le maxLinks, _⟩
  rw [targetStart, if_pos (isAbsolute_path l)]
  by_cases hl : l = []
  · subst hl
    have hnames : Path.names (Location.path []) = ["", ""] := by decide
    rw [hnames, leads_root_iff, leads_root_iff]
    apply Leads.done
  · have hproper : ∀ name ∈ l, IsProperName name := fun name => htree.isProperName hnode
    rw [names_path hl hproper, leads_root_iff]
    apply htree.leads_location hnode hlink

/-- A relative path joined to a location's path locates the directory the joined names stand for. -/
theorem locate?_join_path {path : String} (hpath : Path.isAbsolute path = false)
  (hfault : pathFault? (Path.join l.path path) = none)
  (hdirectory : t.hasDirectory (l ++ Path.names path)) :
  t.locate? here (Path.join l.path path) = some (l ++ Path.names path)
  := by
  have hnode := hasDirectory_iff.mp hdirectory
  have hproper : ∀ name ∈ l, IsProperName name := by
    intro name hname
    apply htree.isProperName hnode (List.mem_append_left _ hname)
  apply locate?_eq_some_iff.mpr ⟨hfault, 0, Nat.zero_le maxLinks, _⟩
  rw [targetStart, if_pos isAbsolute_join_path, names_join_path hproper hpath, leads_root_iff]
  apply htree.leads_location hnode (by decide)

/-- Without links, a path below a location leads to a directory only if one is there. -/
theorem hasDirectory_of_isDirectory {path : String} (hlinks : t.HasNoLinks)
  (hdirectory : t.hasDirectory l) (hpath : Path.isAbsolute path = false)
  (hnames : ∀ name ∈ Path.names path, IsEntryName name)
  (h : t.isDirectory here (Path.join l.path path)) :
  t.hasDirectory (l ++ Path.names path)
  := by
  have hproper : ∀ name ∈ l, IsProperName name :=
    fun name => htree.isProperName (hasDirectory_iff.mp hdirectory)
  obtain ⟨l', hl', hdirectory'⟩ := isDirectory_iff.mp h
  obtain ⟨_, _, _, hleads⟩ := locate?_eq_some_iff.mp hl'
  rw [targetStart, if_pos isAbsolute_join_path, names_join_path hproper hpath, leads_root_iff] at hleads
  obtain rfl := hleads.eq_append hlinks (by
    intro name hname
    obtain hname | hname := List.mem_append.mp hname
    · apply (hproper name hname).1
    · apply hnames name hname)
  apply hdirectory'

end

end FileTree

end Cohesion
