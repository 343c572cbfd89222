import Cohesion.Project
import Cohesion.Proofs.Walks
import Mathlib.Data.List.Basic
import Mathlib.Data.List.TakeDrop
import Mathlib.Data.List.TakeWhile

/-!
# The source files of a project

The files that are scanned are the Java files below the source root that no rule leaves out,
`Discovery.mem_javaFiles_iff`.  So the files of tests stay out as long as the source root is beside them.
It is if there is one of the more specific usual places; but if the source directory is all there is,
the files of tests are scanned as any other files of it: `Project.testFiles_scanned_iff`.
-/

namespace Cohesion

/-- A path is that of a directory exactly when it is located at one. -/
theorem Environment.isDirectory_iff {e : Environment} {path : String} :
  e.isDirectory path ↔ ∃ l, e.locate? path = some l ∧ e.files.hasDirectory l
  := FileTree.isDirectory_iff

namespace Discovery

variable {e : Environment} {project root : String} {r l : Location} {files : List Location}
  {selection : List IgnoreRule} {glob : Option String}

/-! ### The source root -/

/-- The first of the usual roots is taken wherever it is a directory. -/
theorem sourceRoot_eq_first (h : e.isDirectory (Path.join project "src/main/java")) :
  sourceRoot e project = Path.join project "src/main/java"
  := by simp [sourceRoot, sourceRoots, h]

/-- The second of the usual roots is taken where the first is no directory. -/
theorem sourceRoot_eq_second (hfirst : ¬ e.isDirectory (Path.join project "src/main/java"))
  (h : e.isDirectory (Path.join project "src/java")) :
  sourceRoot e project = Path.join project "src/java"
  := by simp [sourceRoot, sourceRoots, hfirst, h]

/-- The last of the usual roots is taken where neither of the others is a directory. -/
theorem sourceRoot_eq_third (hfirst : ¬ e.isDirectory (Path.join project "src/main/java"))
  (hsecond : ¬ e.isDirectory (Path.join project "src/java"))
  (h : e.isDirectory (Path.join project "src")) :
  sourceRoot e project = Path.join project "src"
  := by simp [sourceRoot, sourceRoots, hfirst, hsecond, h]

/-! ### The files below it -/

/-- The files listed below a root are the Java files that the walk from the root reaches. -/
theorem mem_javaFilesBelow_iff :
  l ∈ javaFilesBelow e selection r root ↔
    ∃ names, l = r ++ names ∧ (∃ content days, (l, .file content days) ∈ e.files.entries) ∧
      names.getLast?.any isJava ∧ isReached e selection r root names
  := by
  rw [javaFilesBelow, List.mem_filterMap]
  constructor
  · rintro ⟨⟨l', node⟩, hentry, h⟩
    dsimp only at h
    split at h
    · rename_i content days names hsplit
      split at h
      · rename_i hlisted
        cases h
        rw [Bool.and_eq_true] at hlisted
        use names, (List.append_eq_of_isPrefixOf?_eq_some hsplit).symm, ⟨content, days, hentry⟩
      · cases h
    · cases h
  · rintro ⟨names, rfl, ⟨content, days, hentry⟩, hjava, hreached⟩
    have hsplit : r.isPrefixOf? (r ++ names) = some names :=
      List.isPrefixOf?_eq_some_iff_append_eq.mpr rfl
    use (r ++ names, .file content days), hentry
    simp only [hsplit]
    rw [if_pos (by rw [hjava, hreached]; rfl)]

/-- Every file listed under a directory is a file of the tree. -/
theorem mem_entries_of_mem_javaFiles (h : javaFiles e root glob = .ok files)
  (hdirectory : ∀ r, e.locate? root = some r → e.files.hasDirectory r) (hl : l ∈ files) :
  ∃ content days, (l, .file content days) ∈ e.files.entries
  := by
  rw [javaFiles] at h
  split at h
  · cases h
  · split at h
    · cases h
    · rename_i r hr
      rw [if_pos (hdirectory r hr)] at h
      split at h
      · cases h
        obtain ⟨_, _, hentry, _⟩ := mem_javaFilesBelow_iff.mp (List.mem_mergeSort.mp hl)
        apply hentry
      · cases h

/-- Under a directory, the files listed are exactly the Java files that the walk from it reaches. -/
theorem mem_javaFiles_iff (h : javaFiles e root glob = .ok files) (hr : e.locate? root = some r)
  (hdirectory : e.files.hasDirectory r) (hselection : selectionRules glob = .ok selection) :
  l ∈ files ↔
    ∃ names, l = r ++ names ∧ (∃ content days, (l, .file content days) ∈ e.files.entries) ∧
      names.getLast?.any isJava ∧ isReached e selection r root names
  := by
  rw [← mem_javaFilesBelow_iff]
  rw [javaFiles, hselection] at h
  simp only at h
  rw [hr] at h
  simp only at h
  rw [if_pos hdirectory] at h
  split at h
  · cases h
    apply List.mem_mergeSort
  · cases h

/-! ### Without hidden files -/

section

variable {name : String} {names : List String}

/-- Whether no entry of a tree has a hidden name. -/
def HasNoHidden (t : FileTree) : Prop :=
  ∀ entry ∈ t.entries, ∀ name ∈ entry.1, ¬ isHidden name

instance (t : FileTree) : Decidable (HasNoHidden t) :=
  inferInstanceAs (Decidable (∀ entry ∈ t.entries, ∀ name ∈ entry.1, _))

/-- An ignore file that is not there gives no rules. -/
theorem ofFile_eq_nil {path : String} (h : e.locate? path = none) :
  IgnoreRules.ofFile e path = ([], [])
  := by rw [IgnoreRules.ofFile, Environment.content?, h, Option.bind_none]

variable (hplain : HasNoHidden e.files)

include hplain

/-- No path leads over a hidden name. -/
theorem locate?_eq_none_of_isHidden {here : Location} {path : String} (hname : name ∈ Path.names path)
  (hhidden : isHidden name) (hentry : FileTree.IsEntryName name) :
  e.files.locate? here path = none
  := by
  apply FileTree.locate?_eq_none hname hentry
  intro directory
  by_contra h
  obtain ⟨node, hnode⟩ := Option.ne_none_iff_exists'.mp h
  have hmem := FileTree.mem_entries_of_node? hnode (by simp)
  apply hplain _ hmem name (by simp) hhidden

/-- Without hidden entries no directory gives rules. -/
theorem rulesNamed_eq_nil (hname : name ∈ [".ignore", ".gitignore"]) (directory : Location) :
  rulesNamed e name directory = ([], [])
  := by
  have hnames : ∀ name ∈ [".ignore", ".gitignore"],
      name ∈ Path.names name ∧ isHidden name ∧ FileTree.IsEntryName name := by decide
  obtain ⟨hself, hhidden, hentry⟩ := hnames name hname
  apply ofFile_eq_nil
  apply locate?_eq_none_of_isHidden hplain (Path.mem_names_join hself) hhidden hentry

theorem privateRules_eq_nil (directory : Location) :
  Repository.privateRules e directory = ([], [])
  := by
  have hentry : FileTree.IsEntryName ".git" := by decide
  have hgit : ".git" ∈ Path.names (Path.join directory.path ".git") :=
    Path.mem_names_join (by decide)
  have hown : e.locate? (Path.join directory.path ".git") = none :=
    locate?_eq_none_of_isHidden hplain hgit (by decide) hentry
  have hrules : e.locate? (Path.join (Path.join directory.path ".git") "info/exclude") = none :=
    locate?_eq_none_of_isHidden hplain (Path.mem_names_join_left hgit (by decide) (by decide))
      (by decide) hentry
  have hdirectory : Repository.ownDirectory? e directory
      = .ok (some (Path.join directory.path ".git")) := by
    unfold Repository.ownDirectory?
    simp [Environment.content?, hown, pure, Except.pure]
  unfold Repository.privateRules
  split
  · simp_all
  · rfl
  · rename_i own h
    rw [hdirectory] at h
    cases h
    apply ofFile_eq_nil hrules

theorem isTop_eq_false (directory : Location) :
  Repository.isTop e directory = false
  := by
  have hnames : ∀ name ∈ [".git", ".jj"],
      name ∈ Path.names name ∧ isHidden name ∧ FileTree.IsEntryName name := by decide
  rw [Repository.isTop, List.any_eq_false]
  intro name hname
  obtain ⟨hself, hhidden, hentry⟩ := hnames name hname
  rw [locate?_eq_none_of_isHidden hplain hself hhidden hentry]
  decide

/-- Outside of every repository no directory is searched for its rules. -/
theorem upToTop_eq_nil (directories : List Location) :
  Repository.upToTop e directories = []
  := by
  have hspan : (directories.span (!Repository.isTop e ·)).2 = [] := by
    rw [List.span_eq_takeWhile_dropWhile, List.dropWhile_eq_nil_iff]
    simp [isTop_eq_false hplain]
  rw [Repository.upToTop]
  simp only [hspan]

/-- Without hidden entries no path has a verdict. -/
theorem verdict?_eq_none (path : String) (l : Location) (isDirectory : Bool) :
  verdict? e path l isDirectory = none
  := by
  have hignore : rulesNamed e ".ignore" = fun _ => ([], []) := by
    funext directory
    apply rulesNamed_eq_nil hplain (by decide)
  have hrules : verdictIn? (above l) (rulesNamed e ".ignore") l isDirectory = none := by
    rw [verdictIn?, List.findSome?_eq_none_iff]
    intro directory _
    rw [hignore]
    rfl
  rw [verdict?, upToTop_eq_nil hplain, hrules]
  rfl

/-- Without hidden entries no ignore file has a fault. -/
theorem faultsAbove_eq_nil (l : Location) :
  faultsAbove e l = []
  := by
  rw [faultsAbove, List.flatMap_eq_nil_iff]
  intro directory _
  simp [rulesNamed_eq_nil hplain, privateRules_eq_nil hplain]

/-- Every file without a hidden name is reached. -/
theorem isReached_of_hasNoHidden (hnames : ∀ name ∈ names, ¬ isHidden name) :
  isReached e [] r root names
  := by
  rw [isReached, List.all_eq_true]
  intro front hfront
  have hselection : selection? [] ("/".intercalate front) (front.length < names.length) = none := by
    simp [selection?, IgnoreRules.verdict?]
  rw [isListed, hselection]
  simp only [verdict?_eq_none hplain]
  have hfronts : ∀ name ∈ front, name ∈ names := by
    rw [fronts] at hfront
    obtain ⟨length, _, rfl⟩ := List.mem_map.mp (List.mem_of_mem_tail hfront)
    intro name
    apply List.mem_of_mem_take
  have hlast : front.getLast?.any isHidden = false := by
    rw [Option.any_eq_false]
    intro name hname
    apply Bool.eq_false_iff.mpr (hnames name (hfronts name (List.mem_of_getLast? hname)))
  rw [hlast]
  rfl

/-- The files below a directory can be listed. -/
theorem exists_javaFiles (hr : e.locate? root = some r) (hdirectory : e.files.hasDirectory r) :
  ∃ files, javaFiles e root none = .ok files
  := by
  use (javaFilesBelow e [] r root).mergeSort Location.isAtMost
  simp only [javaFiles, selectionRules, hr]
  rw [if_pos hdirectory, faultsAbove_eq_nil hplain]

end

end Discovery

namespace Project

variable {e : Environment} {path : String} {project : Location} {files : List Location}

/-- Where tests are in a project. -/
def testTree : List String :=
  ["src", "test", "java"]

/-- The project that is opened is a directory of the tree. -/
theorem hasDirectory_of_directory (h : directory e path = .ok project) :
  e.files.hasDirectory project
  := by
  rw [directory] at h
  split at h
  · cases h
  · split at h
    · cases h
      assumption
    · cases h

/-- The path of a directory opens that directory. -/
theorem directory_path (htree : e.files.IsTree) (hfault : FileTree.pathFault? project.path = none)
  (hdirectory : e.files.hasDirectory project) :
  directory e project.path = .ok project
  := by
  have hplace : e.locate? project.path = some project :=
    FileTree.locate?_path htree hfault (FileTree.hasDirectory_iff.mp hdirectory) (by decide)
  rw [directory, hplace]
  apply if_pos hdirectory

/-- The facts of a project are those of its source files. -/
theorem facts_eq_of_javaFiles {glob : Option String} (grammar : Grammar)
  (hproject : directory e path = .ok project)
  (hfiles : Discovery.javaFiles e (Discovery.sourceRoot e project.path) glob = .ok files) :
  facts e grammar path glob =
    (files.mapM fun l => fileFacts e grammar l.path).map (·.foldl Java.addFile Java.noFacts)
  := by
  rw [facts, hproject]
  simp only [bind, Except.bind, hfiles]
  cases files.mapM fun l => fileFacts e grammar l.path <;> rfl

section

variable (htree : e.files.IsTree)
  (hshort : ∀ root ∈ Discovery.sourceRoots, FileTree.pathFault? (Path.join project.path root) = none)
  (hfiles : Discovery.javaFiles e (Discovery.sourceRoot e project.path) none = .ok files)

include htree

/-- The source root of a project is located at a directory. -/
theorem hasDirectory_of_sourceRoot (hdirectory : e.files.hasDirectory project) (r : Location)
  (hr : e.locate? (Discovery.sourceRoot e project.path) = some r) :
  e.files.hasDirectory r
  := by
  rw [Discovery.sourceRoot] at hr
  cases hroot : (Discovery.sourceRoots.map (Path.join project.path)).find? e.isDirectory with
  | none =>
    rw [hroot, Option.getD_none] at hr
    have hfault := (FileTree.locate?_eq_some_iff.mp hr).1
    rw [Environment.locate?, FileTree.locate?_path htree hfault (FileTree.hasDirectory_iff.mp hdirectory)
      (by decide)] at hr
    cases hr
    apply hdirectory
  | some root =>
    rw [hroot, Option.getD_some] at hr
    obtain ⟨l, hl, hdirectory⟩ := Environment.isDirectory_iff.mp (List.find?_some hroot)
    rw [hr] at hl
    cases hl
    apply hdirectory

include hshort

/-- One of the usual roots that stands in the project is a directory by its path. -/
theorem isDirectory_of_hasDirectory {root : String} (hmem : root ∈ Discovery.sourceRoots)
  (hdirectory : e.files.hasDirectory (project ++ Path.names root)) :
  e.isDirectory (Path.join project.path root)
  := by
  have hrelative : ∀ root ∈ Discovery.sourceRoots, Path.isAbsolute root = false := by decide
  apply Environment.isDirectory_iff.mpr ⟨_, _, hdirectory⟩
  apply FileTree.locate?_join_path htree (hrelative root hmem) (hshort root hmem) hdirectory

include hfiles

/-- The files that are scanned are below the source root, if this is where its names say. -/
theorem mem_sourceFiles_iff {root : String} {l : Location} (hmem : root ∈ Discovery.sourceRoots)
  (hroot : Discovery.sourceRoot e project.path = Path.join project.path root)
  (hdirectory : e.files.hasDirectory (project ++ Path.names root)) :
  l ∈ files ↔
    ∃ names, l = project ++ Path.names root ++ names ∧
      (∃ content days, (l, .file content days) ∈ e.files.entries) ∧
      names.getLast?.any Discovery.isJava ∧
      Discovery.isReached e [] (project ++ Path.names root) (Path.join project.path root) names
  := by
  have hrelative : ∀ root ∈ Discovery.sourceRoots, Path.isAbsolute root = false := by decide
  rw [hroot] at hfiles
  apply Discovery.mem_javaFiles_iff hfiles _ hdirectory rfl
  apply FileTree.locate?_join_path htree (hrelative root hmem) (hshort root hmem) hdirectory

/-- No file of the test tree is listed when the root scanned is a directory beside it. -/
theorem append_testTree_not_mem {root : String} (hmem : root ∈ Discovery.sourceRoots)
  (hroot : Discovery.sourceRoot e project.path = Path.join project.path root)
  (hdirectory : e.files.hasDirectory (project ++ Path.names root))
  (hbeside : ¬ Path.names root <+: testTree) (names : List String)
  (hlength : (Path.names root).length ≤ testTree.length) :
  project ++ testTree ++ names ∉ files
  := by
  intro h
  obtain ⟨below, hl, _⟩ := (mem_sourceFiles_iff htree hshort hfiles hmem hroot hdirectory).mp h
  rw [List.append_assoc, List.append_assoc, List.append_cancel_left_eq] at hl
  apply hbeside
  apply List.prefix_of_prefix_length_le _ (List.prefix_append _ names) hlength
  rw [hl]
  apply List.prefix_append

end

/-- The files of tests are not scanned if a more specific source root is a directory beside them, or if
there is no source directory at all.  If the source directory is the only usual place, they are scanned
unless a rule leaves them out. -/
theorem testFiles_scanned_by_root (hproject : directory e path = .ok project)
  (hfiles : Discovery.javaFiles e (Discovery.sourceRoot e project.path) none = .ok files)
  (htree : e.files.IsTree)
  (hshort : ∀ root ∈ Discovery.sourceRoots,
    FileTree.pathFault? (Path.join project.path root) = none) :
  (∀ grammar, facts e grammar path none =
      (files.mapM fun l => fileFacts e grammar l.path).map (·.foldl Java.addFile Java.noFacts)) ∧
    ((e.files.hasDirectory (project ++ ["src", "main", "java"]) ∨
        ¬ e.isDirectory (Path.join project.path "src/main/java") ∧
          e.files.hasDirectory (project ++ ["src", "java"]) ∨
        ¬ e.files.hasDirectory (project ++ ["src"])) →
      ∀ names, project ++ testTree ++ names ∉ files) ∧
    (¬ e.isDirectory (Path.join project.path "src/main/java") →
      ¬ e.isDirectory (Path.join project.path "src/java") →
      e.files.hasDirectory (project ++ ["src"]) →
      ∀ names, project ++ testTree ++ names ∈ files ↔
        (∃ content days, (project ++ testTree ++ names, .file content days) ∈ e.files.entries) ∧
          (testTree.tail ++ names).getLast?.any Discovery.isJava ∧
          Discovery.isReached e [] (project ++ ["src"]) (Path.join project.path "src")
            (testTree.tail ++ names))
  := by
  have hplaces : "src/main/java" ∈ Discovery.sourceRoots ∧ "src/java" ∈ Discovery.sourceRoots ∧
      "src" ∈ Discovery.sourceRoots := by decide
  refine ⟨fun grammar => facts_eq_of_javaFiles grammar hproject hfiles, ?_, ?_⟩
  · -- A more specific root stands beside the tests, and without a source directory there are none.
    rintro (hfirst | ⟨hfirst, hsecond⟩ | hnone) names
    · have hroot := Discovery.sourceRoot_eq_first
        (isDirectory_of_hasDirectory htree hshort hplaces.1 hfirst)
      apply append_testTree_not_mem htree hshort hfiles hplaces.1 hroot hfirst (by decide) names
        (by decide)
    · have hroot := Discovery.sourceRoot_eq_second hfirst
        (isDirectory_of_hasDirectory htree hshort hplaces.2.1 hsecond)
      apply append_testTree_not_mem htree hshort hfiles hplaces.2.1 hroot hsecond (by decide) names
        (by decide)
    · intro h
      obtain ⟨content, days, hentry⟩ := Discovery.mem_entries_of_mem_javaFiles hfiles
        (hasDirectory_of_sourceRoot htree (hasDirectory_of_directory hproject)) h
      have hbelow : project ++ testTree ++ names = project ++ ["src"] ++ (testTree.tail ++ names) := by
        simp [testTree]
      rw [hbelow] at hentry
      apply hnone (htree.hasDirectory_of_mem_entries hentry (by simp [testTree]))
  · intro hfirst hsecond hthird names
    have hroot := Discovery.sourceRoot_eq_third hfirst hsecond
      (isDirectory_of_hasDirectory htree hshort hplaces.2.2 hthird)
    rw [mem_sourceFiles_iff htree hshort hfiles hplaces.2.2 hroot hthird]
    have hbelow : project ++ testTree ++ names
        = project ++ Path.names "src" ++ (testTree.tail ++ names) := by
      have hsrc : Path.names "src" = ["src"] := by decide
      simp [testTree, hsrc]
    constructor
    · rintro ⟨below, hl, h⟩
      rw [hbelow, List.append_cancel_left_eq] at hl
      subst hl
      apply h
    · intro h
      use testTree.tail ++ names, hbelow
      apply h

/-- A project with Java files of its own and with tests. -/
def withTests : Environment :=
  ⟨⟨[(["p"], .directory), (["p", "src"], .directory), (["p", "src", "main"], .directory),
      (["p", "src", "main", "java"], .directory),
      (["p", "src", "main", "java", "App.java"], .file (.zeros 0) 0),
      (["p", "src", "test"], .directory), (["p", "src", "test", "java"], .directory),
      (["p", "src", "test", "java", "AppTest.java"], .file (.zeros 0) 0)]⟩, [], "/home", none⟩

theorem testFiles_scanned_by_root_withTests :
  ∃ files, Discovery.javaFiles withTests (Discovery.sourceRoot withTests (Location.path ["p"])) none
      = .ok files ∧
    ["p", "src", "test", "java", "AppTest.java"] ∉ files
  := by
  have htree : withTests.files.IsTree := by decide
  have hshort : ∀ root ∈ Discovery.sourceRoots,
      FileTree.pathFault? (Path.join (Location.path ["p"]) root) = none := by decide
  have hproject := directory_path htree (by decide) (by decide : withTests.files.hasDirectory ["p"])
  have hfirst : withTests.files.hasDirectory (["p"] ++ Path.names "src/main/java") := by decide
  have hroot := Discovery.sourceRoot_eq_first
    (isDirectory_of_hasDirectory htree hshort (by decide) hfirst)
  have hlocated : withTests.locate? (Discovery.sourceRoot withTests (Location.path ["p"]))
      = some (["p"] ++ Path.names "src/main/java") := by
    rw [hroot]
    apply FileTree.locate?_join_path htree (by decide) (by decide) hfirst
  obtain ⟨files, hfiles⟩ := Discovery.exists_javaFiles (by decide) hlocated hfirst
  obtain ⟨_, hout, _⟩ := testFiles_scanned_by_root hproject hfiles htree hshort
  use files, hfiles
  apply hout (.inl hfirst) ["AppTest.java"]

/-- A project whose only Java files are tests. -/
def testsOnly : Environment :=
  ⟨⟨[(["p"], .directory), (["p", "src"], .directory), (["p", "src", "main"], .directory),
      (["p", "src", "main", "App.kt"], .file (.zeros 0) 0), (["p", "src", "test"], .directory),
      (["p", "src", "test", "java"], .directory),
      (["p", "src", "test", "java", "AppTest.java"], .file (.zeros 0) 0)]⟩, [], "/home", none⟩

theorem isTree_testsOnly :
  testsOnly.files.IsTree
  := by decide

theorem locate?_testsOnly :
  testsOnly.locate? (Path.join (Location.path ["p"]) "src") = some (["p"] ++ Path.names "src")
  := by
  apply FileTree.locate?_join_path isTree_testsOnly <;> decide

theorem sourceRoot_testsOnly :
  Discovery.sourceRoot testsOnly (Location.path ["p"]) = Path.join (Location.path ["p"]) "src"
  := by
  have hnames : ∀ root ∈ Discovery.sourceRoots,
      ∀ name ∈ Path.names root, FileTree.IsEntryName name := by decide
  have hplace : ∀ root ∈ Discovery.sourceRoots, Path.isAbsolute root = false →
      testsOnly.isDirectory (Path.join (Location.path ["p"]) root) →
      testsOnly.files.hasDirectory (["p"] ++ Path.names root) := by
    intro root hmem hrelative
    apply FileTree.hasDirectory_of_isDirectory isTree_testsOnly (by decide) (by decide) hrelative
      (hnames root hmem)
  apply Discovery.sourceRoot_eq_third
  · intro h
    exact absurd (hplace "src/main/java" (by decide) (by decide) h) (by decide)
  · intro h
    exact absurd (hplace "src/java" (by decide) (by decide) h) (by decide)
  · apply Environment.isDirectory_iff.mpr ⟨_, locate?_testsOnly, _⟩
    decide

/-- Not all files of tests stay out. -/
theorem not_forall_testFiles_not_mem :
  ¬ ∀ (e : Environment) (path : String) (project : Location) (files : List Location)
      (names : List String), directory e path = .ok project →
    Discovery.javaFiles e (Discovery.sourceRoot e project.path) none = .ok files →
    project ++ testTree ++ names ∉ files
  := by
  intro h
  have hproject := directory_path isTree_testsOnly (by decide)
    (by decide : testsOnly.files.hasDirectory ["p"])
  obtain ⟨files, hfiles⟩ := Discovery.exists_javaFiles (by decide) locate?_testsOnly (by decide)
  apply h testsOnly _ ["p"] files ["AppTest.java"] hproject (sourceRoot_testsOnly ▸ hfiles)
  apply (Discovery.mem_javaFiles_iff hfiles locate?_testsOnly (by decide) rfl).mpr
  use ["test", "java", "AppTest.java"], rfl, ⟨.zeros 0, 0, by simp [testsOnly, testTree]⟩, by decide
  apply Discovery.isReached_of_hasNoHidden (by decide) (by decide)

end Project

end Cohesion
