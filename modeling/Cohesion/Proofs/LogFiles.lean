import Cohesion.Files.LogFiles
import Cohesion.Proofs.Walks

/-!
# Removing old log files

To clean a directory of logs takes away entries of this directory that are stale, and nothing else:
`LogFiles.Cleaned` is what every step preserves.  What is taken away is no directory and no link to one,
so the path leads to the directory all the time, and nothing stale is left in the end.  So of the files,
exactly those with the name of a log go that are older than the days they are kept, whatever follows the
dot in their names: `LogFiles.clean_removes_log_names`.
-/

namespace Cohesion

namespace LogFiles

variable {e : Environment} {path : String} {directory l : Location} {t t' : FileTree} {name : String}
  {names : List String} {node : FileNode} {content : FileContent} {days : Nat}

/-- Whether a name is that of the log file of some day: its year, month and day behind the dot. -/
def isRolledName (name : String) : Bool :=
  isLogName name && isDate (name.toList.drop namePart.length)
where
  /-- Whether characters are those of a date. -/
  isDate (cs : List Char) : Bool :=
    cs.length = 10 && cs.zipIdx.all fun (c, i) => if i = 4 || i = 7 then c = '-' else c.isDigit

/-! ### What is stale -/

/-- An entry is stale exactly when it is an old log file that its path locates. -/
theorem isStale_iff :
  isStale e path directory name ↔
    (∃ l content, e.locate? (Path.join path name) = some l ∧ e.files.content? l = some content) ∧
      isLogName name ∧ ∃ node, e.files.node? (directory ++ [name]) = some node ∧ keptDays ≤ node.days
  := by
  rw [isStale, Environment.content?]
  simp only [Bool.and_eq_true, Option.isSome_iff_exists, Option.bind_eq_some_iff, Option.any_eq_true,
    decide_eq_true_eq, and_assoc]
  constructor
  · rintro ⟨⟨content, l, hl, hcontent⟩, hlog, hnode⟩
    use ⟨l, content, hl, hcontent⟩, hlog
  · rintro ⟨⟨l, content, hl, hcontent⟩, hlog, hnode⟩
    use ⟨content, l, hl, hcontent⟩, hlog

/-- What is stale with fewer entries is stale with all of them. -/
theorem isStale_of_isWithin (hwithin : t'.IsWithin t)
  (h : isStale { e with files := t' } path directory name) :
  isStale { e with files := t } path directory name
  := by
  rw [isStale_iff] at h ⊢
  obtain ⟨⟨l, content, hl, hcontent⟩, hlog, node, hnode, hdays⟩ := h
  obtain ⟨hfault, k, hk, hleads⟩ := FileTree.locate?_eq_some_iff.mp hl
  obtain ⟨days, hfile⟩ := FileTree.content?_eq_some_iff.mp hcontent
  refine ⟨⟨l, content, ?_, ?_⟩, hlog, node, hwithin _ _ hnode, hdays⟩
  · apply FileTree.locate?_eq_some_iff.mpr ⟨hfault, k, hk, hleads.of_isWithin hwithin⟩
  · apply FileTree.content?_eq_some_iff.mpr ⟨days, hwithin _ _ hfile⟩

section Directory

variable (hpath : e.locate? path = some directory)

include hpath

/-- A file is stale by its name and its age. -/
theorem isStale_file_iff (hdirectory : e.files.hasDirectory directory)
  (hname : FileTree.IsProperName name)
  (hnode : e.files.node? (directory ++ [name]) = some (.file content days)) :
  isStale e path directory name ↔
    isLogName name ∧ keptDays ≤ days ∧ FileTree.pathFault? (Path.join path name) = none
  := by
  rw [isStale_iff]
  constructor
  · rintro ⟨⟨l, content', hl, hcontent⟩, hlog, node, hnode', hdays⟩
    rw [hnode] at hnode'
    cases hnode'
    use hlog, hdays, (FileTree.locate?_eq_some_iff.mp hl).1
  · rintro ⟨hlog, hdays, hfault⟩
    refine ⟨⟨directory ++ [name], content, ?_, ?_⟩, hlog, _, hnode, hdays⟩
    · apply FileTree.locate?_join hpath hdirectory hname hnode Bool.false_ne_true hfault
    · apply FileTree.content?_eq_some_iff.mpr ⟨days, hnode⟩

/-- What is stale is no directory and no link to one. -/
theorem isDeadEnd_of_isStale (hname : FileTree.IsProperName name) (h : isStale e path directory name)
  (hnode : e.files.node? (directory ++ [name]) = some node) :
  e.files.IsDeadEnd directory node
  := by
  obtain ⟨⟨l, content, hl, hcontent⟩, _⟩ := isStale_iff.mp h
  obtain ⟨days, hfile⟩ := FileTree.content?_eq_some_iff.mp hcontent
  obtain ⟨_, hleads⟩ := FileTree.exists_leads_of_locate?_join hpath hname.2 hl
  cases hleads with
  | stay _ hcounts => exact absurd hname.1.1 hcounts
  | up => exact absurd rfl hname.1.2.1
  | through _ _ hlink hleads =>
    rw [hnode] at hlink
    cases hlink
    rw [List.append_nil] at hleads
    refine ⟨_, l, hleads, ?_⟩
    simp [FileTree.hasDirectory_iff, hfile]
  | into _ _ hnode' _ hleads =>
    cases hleads
    rw [hfile] at hnode
    cases hnode
    apply trivial

end Directory

/-! ### The entries one after another -/

/-- A tree is that of an environment, but for stale entries of a directory that are gone. -/
def Cleaned (e : Environment) (path : String) (directory : Location) (t : FileTree) : Prop :=
  ∀ l, t.node? l = e.files.node? l ∨
    t.node? l = none ∧ ∃ name, l = directory ++ [name] ∧ isStale e path directory name

/-- A cleaned tree is within the one it was. -/
theorem Cleaned.isWithin (h : Cleaned e path directory t) :
  t.IsWithin e.files
  := by
  intro l node hnode
  obtain hsame | ⟨hnone, _⟩ := h l
  · rw [← hsame, hnode]
  · rw [hnone] at hnode
    cases hnode

/-- Cleaning one more entry keeps a tree cleaned. -/
theorem Cleaned.cleanEntry (h : Cleaned e path directory t) (name : String) :
  Cleaned e path directory (cleanEntry e path directory t name)
  := by
  rw [LogFiles.cleanEntry]
  split
  · rename_i hstale
    intro l
    rw [FileTree.node?_erase t (by simp)]
    split
    · subst l
      right
      use rfl, name, rfl, isStale_of_isWithin h.isWithin hstale
    · apply h l
  · apply h

/-- Cleaning more entries keeps a tree cleaned. -/
theorem Cleaned.foldl_cleanEntry (h : Cleaned e path directory t) (names : List String) :
  Cleaned e path directory (names.foldl (LogFiles.cleanEntry e path directory) t)
  := by
  induction names generalizing t with
  | nil => apply h
  | cons name names ih => apply ih (h.cleanEntry name)

/-- Cleaning an entry adds nothing to the tree. -/
theorem isWithin_cleanEntry (t : FileTree) (name : String) :
  (cleanEntry e path directory t name).IsWithin t
  := by
  rw [cleanEntry]
  split
  · apply (FileTree.IsWithin.refl t).erase (by simp)
  · apply FileTree.IsWithin.refl

/-- Cleaning any number of entries adds nothing to the tree. -/
theorem isWithin_foldl_cleanEntry (t : FileTree) (names : List String) :
  (names.foldl (cleanEntry e path directory) t).IsWithin t
  := by
  induction names generalizing t with
  | nil => apply FileTree.IsWithin.refl
  | cons name names ih =>
    intro l node hnode
    apply isWithin_cleanEntry t name l node (ih _ l node hnode)

/-- An entry is not stale once it has been cleaned. -/
theorem not_isStale_cleanEntry (t : FileTree) (name : String) :
  ¬ isStale { e with files := cleanEntry e path directory t name } path directory name
  := by
  rw [cleanEntry]
  split
  · intro h
    obtain ⟨_, _, node, hnode, _⟩ := isStale_iff.mp h
    rw [FileTree.node?_erase t (by simp), if_pos rfl] at hnode
    cases hnode
  · assumption

/-- An entry that had its turn is not stale any more. -/
theorem not_isStale_foldl_cleanEntry (t : FileTree) (hname : name ∈ names) :
  ¬ isStale { e with files := names.foldl (cleanEntry e path directory) t } path directory name
  := by
  induction names generalizing t with
  | nil => cases hname
  | cons first names ih =>
    obtain rfl | hname := List.mem_cons.mp hname
    · intro h
      apply not_isStale_cleanEntry t name
      apply isStale_of_isWithin (isWithin_foldl_cleanEntry _ names) h
    · apply ih _ hname

/-! ### The whole directory -/

section Clean

variable (hpath : e.locate? path = some directory) (hdirectory : e.files.hasDirectory directory)

include hpath hdirectory

/-- Cleaning a directory that is located cleans its entries one after another. -/
theorem clean_eq_foldl :
  clean e path = (e.files.namesIn directory).foldl (cleanEntry e path directory) e.files
  := by
  rw [clean, hpath]
  simp only
  rw [if_pos hdirectory]

/-- The tree that cleaning gives is a cleaned one. -/
theorem cleaned_clean :
  Cleaned e path directory (clean e path)
  := by
  rw [clean_eq_foldl hpath hdirectory]
  apply Cleaned.foldl_cleanEntry
  intro l
  left
  rfl

/-- After cleaning no entry of the directory is stale. -/
theorem not_isStale_clean (hnode : e.files.node? (directory ++ [name]) = some node) :
  ¬ isStale { e with files := clean e path } path directory name
  := by
  rw [clean_eq_foldl hpath hdirectory]
  apply not_isStale_foldl_cleanEntry _ (FileTree.mem_namesIn_of_node? hnode)

variable (hnames : ∀ name ∈ e.files.namesIn directory, FileTree.IsProperName name)

include hnames

/-- Cleaning takes away files only. -/
theorem isPruned_clean :
  (clean e path).IsPruned e.files
  := by
  intro here name node hnode hlive
  obtain hsame | ⟨_, name', hl, hstale⟩ := cleaned_clean hpath hdirectory (here ++ [name])
  · rw [hsame, hnode]
  · obtain ⟨rfl, rfl⟩ := List.append_singleton_inj.mp hl
    have hname := hnames name (FileTree.mem_namesIn_of_node? hnode)
    exact absurd (isDeadEnd_of_isStale hpath hname hstale hnode) hlive

/-- Cleaning a directory leaves it where it was. -/
theorem locate?_clean :
  (clean e path).locate? e.workingDirectory path = some directory
  := by
  obtain ⟨hfault, k, hk, hleads⟩ := FileTree.locate?_eq_some_iff.mp hpath
  have hpruned := isPruned_clean hpath hdirectory hnames
  apply FileTree.locate?_eq_some_iff.mpr ⟨hfault, k, hk, hleads.of_isPruned hpruned hdirectory⟩

/-- Of the files, those go that have the name of a log and are no longer kept. -/
theorem node?_clean_file (hnode : e.files.node? (directory ++ [name]) = some (.file content days)) :
  (clean e path).node? (directory ++ [name]) =
    if isLogName name ∧ keptDays ≤ days ∧ FileTree.pathFault? (Path.join path name) = none then none
    else some (.file content days)
  := by
  have hname := hnames name (FileTree.mem_namesIn_of_node? hnode)
  have hiff := isStale_file_iff hpath hdirectory hname hnode
  obtain hsame | ⟨hnone, name', hl, hstale⟩ := cleaned_clean hpath hdirectory (directory ++ [name])
  · rw [if_neg, hsame, hnode]
    -- the file would still be stale
    intro hold
    apply not_isStale_clean hpath hdirectory hnode
    apply (isStale_file_iff (e := { e with files := clean e path })
      (locate?_clean hpath hdirectory hnames)
      ((isPruned_clean hpath hdirectory hnames).hasDirectory hdirectory) hname
      (hsame.trans hnode)).mpr hold
  · obtain ⟨_, rfl⟩ := List.append_singleton_inj.mp hl
    rw [hnone, if_pos (hiff.mp hstale)]

end Clean

/-- Whether an entry is a log file of some day that is no longer kept. -/
def IsOldRolledLog (name : String) : FileNode → Prop
  | .file _ days => isRolledName name ∧ keptDays ≤ days
  | _ => False

/-- Nothing outside of a directory of logs changes, and of its entries only those go that lead to files
and are older than the days that logs are kept, with names that start as those of logs do.  All such
files go, if their paths can be used.  So exactly the old log files go if no other old entry has a name
of this start. -/
theorem clean_removes_log_names (hpath : e.locate? path = some directory)
  (hdirectory : e.files.hasDirectory directory)
  (hnames : ∀ name ∈ e.files.namesIn directory, FileTree.IsProperName name) :
  (∀ l, (∀ name, l ≠ directory ++ [name]) → (clean e path).node? l = e.files.node? l) ∧
    (∀ name node, e.files.node? (directory ++ [name]) = some node →
      (clean e path).node? (directory ++ [name]) = some node ∨
        (clean e path).node? (directory ++ [name]) = none ∧ isLogName name ∧ keptDays ≤ node.days ∧
          (e.content? (Path.join path name)).isSome) ∧
    (∀ name content days, e.files.node? (directory ++ [name]) = some (.file content days) →
      FileTree.pathFault? (Path.join path name) = none →
      ((clean e path).node? (directory ++ [name]) = none ↔ isLogName name ∧ keptDays ≤ days)) ∧
    ((∀ name node, e.files.node? (directory ++ [name]) = some node → isLogName name →
        keptDays ≤ node.days → IsOldRolledLog name node) →
      ∀ name node, e.files.node? (directory ++ [name]) = some node →
        FileTree.pathFault? (Path.join path name) = none →
        ((clean e path).node? (directory ++ [name]) = none ↔ IsOldRolledLog name node))
  := by
  have hcleaned := cleaned_clean hpath hdirectory
  have hentry : ∀ name node, e.files.node? (directory ++ [name]) = some node →
      (clean e path).node? (directory ++ [name]) = some node ∨
        (clean e path).node? (directory ++ [name]) = none ∧ isLogName name ∧ keptDays ≤ node.days ∧
          (e.content? (Path.join path name)).isSome := by
    intro name node hnode
    obtain hsame | ⟨hnone, name', hl, hstale⟩ := hcleaned (directory ++ [name])
    · left
      rw [hsame, hnode]
    · right
      obtain ⟨_, rfl⟩ := List.append_singleton_inj.mp hl
      rw [isStale, hnode] at hstale
      simp only [Bool.and_eq_true, Option.any_some, decide_eq_true_eq] at hstale
      use hnone, hstale.1.2, hstale.2, hstale.1.1
  have hfile : ∀ name content days,
      e.files.node? (directory ++ [name]) = some (.file content days) →
      FileTree.pathFault? (Path.join path name) = none →
      ((clean e path).node? (directory ++ [name]) = none ↔ isLogName name ∧ keptDays ≤ days) := by
    intro name content days hnode hfault
    rw [node?_clean_file hpath hdirectory hnames hnode]
    simp [hfault]
  refine ⟨?_, hentry, hfile, ?_⟩
  · intro l hl
    obtain hsame | ⟨_, name, hname, _⟩ := hcleaned l
    · apply hsame
    · exact absurd hname (hl name)
  · -- Where no other old entry has such a name, an entry that is gone is an old log file.
    intro honly name node hnode hfault
    constructor
    · intro hnone
      obtain hsame | ⟨_, hlog, hdays, _⟩ := hentry name node hnode
      · rw [hnone] at hsame
        cases hsame
      · apply honly name node hnode hlog hdays
    · intro hold
      cases node with
      | file content days =>
        obtain ⟨hrolled, hdays⟩ := hold
        apply (hfile name content days hnode hfault).mpr ⟨_, hdays⟩
        rw [isRolledName, Bool.and_eq_true] at hrolled
        apply hrolled.1
      | directory | link => cases hold

/-- A directory of logs with an old log, a new one, and old settings. -/
def mixedLogs : Environment :=
  ⟨⟨[(["logs"], .directory),
      (["logs", "coupling-lens.2026-10-01"], .file (.zeros 1) 4),
      (["logs", "coupling-lens.2026-10-15"], .file (.zeros 1) 0),
      (["logs", "coupling-lens.toml"], .file (.zeros 1) 4)]⟩, [], "/home", none⟩

theorem locate?_mixedLogs :
  mixedLogs.locate? "logs" = some ["logs"]
  := by
  have htree : mixedLogs.files.IsTree := by decide
  have hnames : Path.names "logs" = ["logs"] := by decide
  apply FileTree.locate?_eq_some_iff.mpr ⟨by decide, 0, Nat.zero_le _, _⟩
  rw [hnames]
  apply htree.leads_location rfl (by decide)

/-- Of the mixed logs the old one is removed, and the recent one and the directory are kept. -/
theorem clean_removes_log_names_of_mixedLogs :
  (clean mixedLogs "logs").node? ["logs", "coupling-lens.2026-10-01"] = none ∧
    (clean mixedLogs "logs").node? ["logs", "coupling-lens.2026-10-15"] ≠ none ∧
    (clean mixedLogs "logs").node? ["logs"] = some .directory
  := by
  obtain ⟨hframe, _, hfile, _⟩ := clean_removes_log_names locate?_mixedLogs (by decide) (by decide)
  refine ⟨?_, ?_, ?_⟩
  · apply (hfile "coupling-lens.2026-10-01" _ 4 rfl (by decide)).mpr (by decide)
  · apply (hfile "coupling-lens.2026-10-15" _ 0 rfl (by decide)).not.mpr (by decide)
  · apply hframe
    simp

/-- Not only log files are removed. -/
theorem not_forall_removed_isOldRolledLog :
  ¬ ∀ (e : Environment) (path : String) (directory : Location) (name : String) (node : FileNode),
    e.locate? path = some directory → e.files.node? (directory ++ [name]) = some node →
    (clean e path).node? (directory ++ [name]) = none → IsOldRolledLog name node
  := by
  intro h
  have hnode : mixedLogs.files.node? (["logs"] ++ ["coupling-lens.toml"])
      = some (.file (.zeros 1) 4) := rfl
  have hgone := node?_clean_file locate?_mixedLogs (by decide) (by decide) hnode
  rw [if_pos (by decide)] at hgone
  have hrolled := (h _ _ _ _ _ locate?_mixedLogs hnode hgone).1
  exact absurd hrolled (by decide)

end LogFiles

end Cohesion
