import Cohesion.Proofs.CallCounts
import Cohesion.Proofs.FloatCount
import Cohesion.Proofs.Stages
import Cohesion.Proofs.Ties

/-!
# Projects without calls between classes

If no class calls another one, no pair weighs anything: `CouplingMap.IsSilent`.  A sum of zeros and
its mean are zero in floating point too, so every link of the run is nothing, all merges tie, and the
largest one is made.  The clustering then takes in one class after the other, and there is no module
at any point from zero on: `Analysis.GrowsOneByOne`.
-/

namespace Cohesion

open ClassFacts FloatOrder

/-! ### Sums of zeros -/

namespace Score

/-- The sum of zeros is zero. -/
theorem foldl_add_zero {xs : List Float} (h : ∀ x ∈ xs, x = 0.0) :
  xs.foldl add zero = 0.0
  := by
  induction xs with
  | nil => rfl
  | cons x xs ih =>
    obtain ⟨rfl, hxs⟩ := List.forall_mem_cons.mp h
    have hadd : add zero 0.0 = (zero : Float) := by decide +kernel
    rw [List.foldl_cons, hadd, ih hxs]

/-- The sum over a link starts at negative zero, but with the first zero it becomes positive. -/
theorem sum_eq_zero {xs : List Float} (h : ∀ x ∈ xs, x = 0.0) (hxs : xs ≠ []) :
  sum xs = 0.0
  := by
  obtain ⟨x, rest, rfl⟩ := List.exists_cons_of_ne_nil hxs
  obtain ⟨rfl, hrest⟩ := List.forall_mem_cons.mp h
  have hadd : add emptySum 0.0 = (zero : Float) := by decide +kernel
  rw [sum, List.foldl_cons, hadd, foldl_add_zero hrest]

theorem isTotalOn_zero :
  IsTotalOn (· = (0.0 : Float))
  := by
  constructor
  · rintro a b rfl rfl
    decide +kernel
  · rintro a b c rfl rfl rfl hle -
    apply hle
  · rintro a b rfl rfl
    decide +kernel

end Score

/-! ### Maps without weights -/

/-- No two classes weigh anything. -/
def CouplingMap.IsSilent {S : Type} [Score S] (m : CouplingMap S) : Prop :=
  ∀ x y, m.get x y = Score.zero

/-- Without cross calls no pair has a share of them. -/
theorem CouplingMap.isSilent_ofFacts {S : Type} [Score S] {facts : List ClassFacts}
    (h : crossCalls facts = []) :
  (ofFacts facts : CouplingMap S).IsSilent
  := by
  intro x y
  have htotal : (ofFacts facts : CouplingMap S).totalCalls = 0 := by
    rw [totalCalls_ofFacts, h, List.length_nil]
  cases hentry : CouplingMap.entry? (ofFacts facts : CouplingMap S) x y with
  | none => rw [get, hentry]
  | some e =>
    obtain ⟨hne, hx, hy⟩ := exists_entry?_ofFacts_iff.mp ⟨e, hentry⟩
    obtain ⟨c, hc⟩ := exists_named?_iff.mpr hx
    obtain ⟨d, hd⟩ := exists_named?_iff.mpr hy
    rw [get, entry?_ofFacts hc hd hne, htotal, Score.share, if_pos rfl]

namespace CouplingMap.IsSilent

variable {m : CouplingMap Float}

/-- Without traffic every average link is zero. -/
theorem averageLink_eq_zero (h : m.IsSilent) (b d : NameSet) :
  averageLink m b d = 0.0
  := by
  rw [averageLink]
  split
  · rfl
  · rename_i hcount
    have hlength : (b.names.flatMap fun a => d.names.map (m.get a)).length = b.size * d.size := by
      simp [NameSet.size]
    rw [Score.sum_eq_zero]
    · apply zero_div_ofNat (Nat.pos_of_ne_zero hcount)
    · intro x hx
      obtain ⟨y, -, hx⟩ := List.mem_flatMap.mp hx
      obtain ⟨z, -, rfl⟩ := List.mem_map.mp hx
      apply h
    · intro hnil
      rw [hnil] at hlength
      apply hcount hlength.symm

/-- Without traffic every mean weight is zero. -/
theorem meanWeight_eq_zero (h : m.IsSilent) (names : List String) :
  meanWeight m names = 0.0
  := by
  rw [meanWeight]
  split
  · rfl
  · rename_i hlength
    rw [Score.foldl_add_zero]
    · apply zero_div_ofNat (Nat.pos_of_ne_zero hlength)
    · intro x hx
      obtain ⟨⟨a, b⟩, -, rfl⟩ := List.mem_map.mp hx
      apply h

/-- Without traffic all candidates tie at zero. -/
theorem ties (h : m.IsSilent) :
  m.Ties 0.0
  := by
  constructor
  · intro step c hc
    rw [(Merge.mem_candidates.mp hc).2]
    apply h.averageLink_eq_zero
  · apply Score.isTotalOn_zero

/-- No set of classes is more cohesive than a point from zero on. -/
theorem modules_eq_nil (h : m.IsSilent) (t : Dendrogram Float) {point : Float}
    (hpoint : 0.0 ≤ point) (mode : CutMode) :
  t.modules m ⟨point, mode⟩ = []
  := by
  obtain ⟨hzero, hnumber⟩ := isNaN_of_le hpoint
  have hnone (classes : NameSet) : moduleOf? m point classes = none := by
    rw [moduleOf?, h.meanWeight_eq_zero, if_neg]
    rw [Score.isTotalOn_float.lt_iff hnumber hzero, not_not]
    apply decide_eq_true hpoint
  rw [Dendrogram.modules]
  split
  · rfl
  · simp only [hnone, List.filterMap_none, List.mergeSort_nil, List.take_nil]

end CouplingMap.IsSilent

/-! ### Analyses -/

namespace Analysis

/-- One set of the classes takes in the others one after the other, at the score zero, and no classes
are a module. -/
structure GrowsOneByOne (a : Analysis) (names : NameSet) : Prop where
  length_merges : a.clustering.merges.length = names.size - 1
  score_eq : ∀ c ∈ a.clustering.merges, c.score = 0.0
  /-- After `k` merges one set has `k + 1` classes and all others are single, and the next merge adds
  one of these to it. -/
  clusters : ∀ k, 1 ≤ k → k ≤ names.size - 1 →
    ∃ grown singles, (a.clusters (some k)).clusters = grown :: singles
      ∧ IsPartition names (grown :: singles)
      ∧ grown.size = k + 1
      ∧ (∀ b ∈ singles, b.size = 1) ∧ singles.length = names.size - k - 1
      ∧ ∀ next : k < a.clustering.merges.length, a.clustering.merges[k].Adds grown
  root : ∃ root, a.dendrogram.root? = some root ∧ a.dendrogram.members root = names
    ∧ a.dendrogram.depth root = names.size - 1
  modules : ∀ point : Float, point.isFinite → 0.0 ≤ point → ∀ mode,
    ∃ answer, a.modules point mode = .ok answer ∧ answer.modules = []

/-- An analysis of couplings that weigh nothing grows one set of classes. -/
theorem growsOneByOne_of_isSilent {a : Analysis} (hclustering : a.clustering = cluster a.couplings)
    (ht : Dendrogram.ofMerges a.clustering.merges = .ok a.dendrogram)
    (hsilent : a.couplings.IsSilent) (h : 1 < a.couplings.classes.size) :
  a.GrowsOneByOne a.couplings.classes
  := by
  -- All weights are zero, so every step is decided by the sizes alone.
  have hties := hsilent.ties
  constructor
  · rw [hclustering, length_merges]
  · rw [hclustering]
    intro c hc
    obtain ⟨step, hstep, rfl⟩ := List.mem_iff_getElem.mp hc
    apply hties.score_merges hstep
  · intro k hpos hle
    have hclusters : (a.clusters (some k)).clusters
        = replay a.couplings.classes (cluster a.couplings).merges k := by
      rw [(isStage_clusters hclustering (some k)).clusters_eq_getD, ← hclustering]
      rfl
    have hpartition := isPartition_replay_merges a.couplings k
    obtain ⟨grown, singles, hcons, hgrown⟩ := hties.exists_replay_eq_cons hpos hle
    rw [hcons] at hclusters hpartition
    rw [← hclustering] at hgrown
    use grown, singles, hclusters, hpartition
  · rw [hclustering] at ht
    obtain ⟨root, hroot, hmembers⟩ := Dendrogram.exists_root h ht
    have hdepth :=
      Dendrogram.depth_add_one_of_ties ht hties (Dendrogram.root?_eq_some_iff.mp hroot).lt
    rw [hmembers] at hdepth
    use root, hroot, hmembers
    omega
  · intro point hfinite hpoint mode
    obtain ⟨answer, hanswer, -, hmodules⟩ := a.exists_modules_eq_ok hfinite mode
    use answer, hanswer
    rw [hmodules]
    apply hsilent.modules_eq_nil _ hpoint mode

/-- If no class of a project calls another one, one set of classes takes in all others one after the
other, the tree is as deep as it can be, and there are no modules at any point from zero on. -/
theorem ofFacts_without_crossCalls {project : ProjectFacts}
    (hcalls : crossCalls project.classes = [])
    (hnames : 2 ≤ (NameSet.ofList (project.classes.map ClassFacts.name)).size) :
  ∃ a, ofFacts project = .ok a
    ∧ a.GrowsOneByOne (NameSet.ofList (project.classes.map ClassFacts.name))
  := by
  obtain ⟨a, ha, hcouplings, hclustering, ht⟩ := exists_ofFacts project
  use a, ha
  have hclasses : a.couplings.classes
      = NameSet.ofList (project.classes.map ClassFacts.name) := by
    rw [hcouplings, CouplingMap.classes_ofFacts_of_one_lt hnames]
  have hsilent : a.couplings.IsSilent := by
    rw [hcouplings]
    apply CouplingMap.isSilent_ofFacts hcalls
  rw [← hclasses] at hnames ⊢
  apply growsOneByOne_of_isSilent hclustering ht hsilent hnames

/-- Calls of a class to itself and on unknown receivers are not calls between classes, and neither
are those of a class whose name an earlier one has. -/
theorem ofFacts_without_crossCalls_of_three :
  let facts := [ClassFacts.calling "B" ["B", unresolvedReceiver], .calling "C" [],
    .calling "A" ["A"], .calling "C" ["A"]]
  crossCalls facts = []
    ∧ ∃ a, ofFacts ⟨4, 0, facts⟩ = .ok a ∧ a.GrowsOneByOne (NameSet.ofList ["A", "B", "C"])
  := by
  intro facts
  have hcalls : crossCalls facts = [] := by decide +kernel
  have hnames : NameSet.ofList (facts.map ClassFacts.name) = NameSet.ofList ["A", "B", "C"] := by
    decide +kernel
  use hcalls
  rw [← hnames]
  apply @ofFacts_without_crossCalls ⟨4, 0, facts⟩ hcalls
  decide +kernel

end Analysis

end Cohesion
