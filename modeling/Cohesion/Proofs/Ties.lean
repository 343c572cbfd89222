import Cohesion.Proofs.Encoding
import Cohesion.Proofs.Preference
import Cohesion.Proofs.Stages

/-!
# Runs in which all merges tie

If all merges that may be made have one score, a larger one is made rather than a smaller one.  The
first merge makes a block of two classes, and as long as all others are single the largest merges
are those of this block.  So one block grows by a class with every merge,
`CouplingMap.Ties.isGrown_merged`.  In the tree one child of every join is a single class, and
therefore the tree is as deep as it can be.
-/

namespace Cohesion

variable {S : Type} {blocks : List NameSet} {classes grown : NameSet}

/-! ### One block that grows -/

/-- `grown` is the only block that may have more than one class. -/
structure IsGrown (grown : NameSet) (blocks : List NameSet) : Prop where
  mem : grown ∈ blocks
  single : ∀ b ∈ blocks, b ≠ grown → b.size = 1

/-- One side of a merge is `grown`, and the other one is a single class. -/
def Merge.Adds (c : Merge S) (grown : NameSet) : Prop :=
  c.left = grown ∧ c.right.size = 1 ∨ c.right = grown ∧ c.left.size = 1

/-- Among single classes each is a grown block beside singletons. -/
theorem isGrown_singletons (hgrown : grown ∈ singletons classes) :
  IsGrown grown (singletons classes)
  := by
  use hgrown
  intro b hb _
  obtain ⟨x, -, rfl⟩ := mem_singletons.mp hb
  apply NameSet.size_singleton

/-- A merge that adds a class to the grown block leaves all blocks single but the union. -/
theorem IsGrown.replayStep {c : Merge S} (h : IsGrown grown blocks) (hc : c.Adds grown) :
  IsGrown c.merged (replayStep blocks c)
  := by
  constructor
  · apply mem_replayStep.mpr (Or.inr rfl)
  · intro b hb hne
    obtain ⟨hb, hleft, hright⟩ := (mem_replayStep.mp hb).resolve_right hne
    apply h.single b hb
    rcases hc with ⟨rfl, -⟩ | ⟨rfl, -⟩
    · apply hleft
    · apply hright

/-- A grown block stays one in every order of the blocks. -/
theorem IsGrown.perm {blocks' : List NameSet} (h : IsGrown grown blocks)
    (hperm : blocks.Perm blocks') :
  IsGrown grown blocks'
  := by
  constructor
  · apply hperm.mem_iff.mp h.mem
  · intro b hb
    apply h.single b (hperm.mem_iff.mpr hb)

/-- A merge that adds to the grown block makes it one class larger. -/
theorem Merge.Adds.size_merged {c : Merge S} (hc : c.Adds grown)
    (hdisjoint : c.left.Disjoint c.right) :
  c.merged.size = grown.size + 1
  := by
  rw [Merge.merged, NameSet.size_union hdisjoint]
  rcases hc with ⟨rfl, hright⟩ | ⟨rfl, hleft⟩
  · rw [hright]
  · rw [hleft, Nat.add_comm]

/-- Sorted by size, the blocks begin with the grown one. -/
theorem IsGrown.eq_cons_of_pairwise (h : IsGrown grown blocks) (hnodup : blocks.Nodup)
    (hsorted : blocks.Pairwise fun b d => d.size ≤ b.size) (hsize : 1 < grown.size) :
  ∃ singles, blocks = grown :: singles ∧ ∀ b ∈ singles, b.size = 1
  := by
  cases blocks with
  | nil => apply absurd h.mem List.not_mem_nil
  | cons first rest =>
    have hfirst : first = grown := by
      by_contra hne
      have hmem := (List.mem_cons.mp h.mem).resolve_left (Ne.symm hne)
      have hle := List.rel_of_pairwise_cons hsorted hmem
      have hone := h.single first List.mem_cons_self hne
      omega
    subst hfirst
    use rest, rfl
    intro b hb
    apply h.single b (List.mem_cons_of_mem first hb)
    rintro rfl
    apply (List.nodup_cons.mp hnodup).1 hb

section

variable [Score S] {m : CouplingMap S} {k : S}

/-! ### The largest merge -/

namespace Merge

variable {a b c : Merge S}

/-- Among ties the better candidate is at least as large. -/
theorem size_le_of_beats (h : Score.IsTotalOn (· = k)) (ha : a.score = k) (hb : b.score = k)
    (hab : a.beats b) :
  b.size ≤ a.size
  := by
  have hlt : ¬ Score.lt k k := fun hlt => h.lt_asymm rfl rfl hlt hlt
  rw [beats_iff h ha hb, ha, hb] at hab
  rcases hab.resolve_left hlt with ⟨-, hsize | ⟨hsize, -⟩⟩
  · apply hsize.le
  · apply hsize.ge

theorem size_le_of_not_beats (h : Score.IsTotalOn (· = k)) (ha : a.score = k) (hb : b.score = k)
    (hab : ¬ a.beats b) :
  a.size ≤ b.size
  := by
  have hle : Score.le k k := or_self_iff.mp (h.le_total rfl rfl)
  by_contra hsize
  apply hab
  rw [beats_iff h ha hb, ha, hb]
  apply Or.inr ⟨⟨hle, hle⟩, Or.inl (not_le.mp hsize)⟩

/-- Among ties the order of sizes is coarser than that of candidates. -/
theorem isCoarser_size (h : Score.IsTotalOn (· = k)) :
  IsCoarser (S := S) (fun c => c.score = k) fun a b => a.size ≤ b.size
  := by
  constructor
  · intro a _
    apply le_refl
  · intro a b c _ _ _
    apply le_trans
  · intro a b
    apply size_le_of_beats h
  · intro a b
    apply size_le_of_not_beats h

/-- If all merges tie, no two blocks have more classes than those that are merged. -/
theorem size_add_size_le_of_best? (h : Score.IsTotalOn (· = k))
    (hties : ∀ c ∈ candidates m blocks, c.score = k)
    (hbest : best? (candidates m blocks) = some c) {b d : NameSet} (hb : b ∈ blocks)
    (hd : d ∈ blocks) (hne : b ≠ d) :
  b.size + d.size ≤ c.size
  := by
  have hle := (isCoarser_size h).of_best? hties hbest
  rcases mem_pairsOf_or_mem_pairsOf hb hd hne with hpair | hpair
  · apply hle ⟨b, d, averageLink m b d⟩ (mem_candidates.mpr ⟨hpair, rfl⟩)
  · rw [Nat.add_comm]
    apply hle ⟨d, b, averageLink m d b⟩ (mem_candidates.mpr ⟨hpair, rfl⟩)

end Merge

/-- If all merges tie, the one that is made adds a class to the grown block. -/
theorem IsGrown.adds_of_best? {c : Merge S} (h : IsGrown grown blocks)
    (hblocks : IsOrderedPartition classes blocks) (hk : Score.IsTotalOn (· = k))
    (hties : ∀ c ∈ Merge.candidates m blocks, c.score = k)
    (hbest : Merge.best? (Merge.candidates m blocks) = some c) (hsize : 1 < grown.size) :
  c.Adds grown
  := by
  obtain ⟨⟨hleft, hright, hlt⟩, -⟩ :=
    (Merge.mem_candidates_iff hblocks).mp (Merge.mem_of_best? hbest)
  by_cases hl : c.left = grown
  · left
    use hl
    apply h.single _ hright
    rw [← hl]
    apply hlt.ne.symm
  · have hone := h.single _ hleft hl
    right
    constructor
    · -- Two single classes are fewer than the grown block together with one of them.
      by_contra hr
      have hle := Merge.size_add_size_le_of_best? hk hties hbest h.mem hright (Ne.symm hr)
      rw [Merge.size] at hle
      omega
    · apply hone

/-! ### Runs -/

/-- At every stage of a run all merges that may be made have the score `k`, which ties with
itself. -/
structure CouplingMap.Ties (m : CouplingMap S) (k : S) : Prop where
  score_eq : ∀ step, ∀ c ∈ Merge.candidates m (blocksAfter m step), c.score = k
  total : Score.IsTotalOn (· = k)

/-- The blocks of a run after a merge that adds a class to the grown block. -/
theorem isGrown_blocksAfter_succ {step : Nat} (hstep : step < (cluster m).merges.length)
    (hgrown : IsGrown grown (blocksAfter m step)) (hsize : grown.size = step + 1)
    (hadds : (cluster m).merges[step].Adds grown) :
  IsGrown (cluster m).merges[step].merged (blocksAfter m (step + 1))
    ∧ (cluster m).merges[step].merged.size = step + 2
  := by
  obtain ⟨hleft, hright, hlt⟩ := (joinable_merges hstep).1
  constructor
  · apply (hgrown.replayStep hadds).perm (blocksAfter_succ_perm hstep).symm
  · have hdisjoint := (isOrderedPartition_blocksAfter m step).disjoint_of_ne hleft hright hlt.ne
    rw [hadds.size_merged hdisjoint, hsize]

namespace CouplingMap.Ties

variable {step : Nat}

/-- Where all candidates tie, every merge has the common score. -/
theorem score_merges (h : m.Ties k) (hstep : step < (cluster m).merges.length) :
  (cluster m).merges[step].score = k
  := by
  apply h.score_eq step
  apply Merge.mem_of_best? (best?_blocksAfter hstep).1

/-- A merge adds a class to the union of the merge before it, if this is the grown block. -/
theorem adds_of_isGrown (h : m.Ties k) (hstep : step < (cluster m).merges.length)
    (hgrown : IsGrown grown (blocksAfter m step)) (hsize : 1 < grown.size) :
  (cluster m).merges[step].Adds grown
  := hgrown.adds_of_best? (isOrderedPartition_blocksAfter m step) h.total (h.score_eq step)
    (best?_blocksAfter hstep).1 hsize

/-- After every merge the union that it made is the grown block, and has one class more than there
were merges. -/
theorem isGrown_merged (h : m.Ties k) (hstep : step < (cluster m).merges.length) :
  IsGrown (cluster m).merges[step].merged (blocksAfter m (step + 1))
    ∧ (cluster m).merges[step].merged.size = step + 2
  := by
  induction step with
  | zero =>
    -- At the start any class counts as the grown block, also the one on the left.
    obtain ⟨hleft, hright, hlt⟩ := (joinable_merges hstep).1
    have hgrown : IsGrown (cluster m).merges[0].left (blocksAfter m 0) := isGrown_singletons hleft
    obtain ⟨x, -, hx⟩ := mem_singletons.mp hleft
    apply isGrown_blocksAfter_succ hstep hgrown
    · rw [hx, NameSet.size_singleton]
    · left
      use rfl, hgrown.single _ hright hlt.ne.symm
  | succ step ih =>
    obtain ⟨hgrown, hsize⟩ := ih (Nat.lt_of_succ_lt hstep)
    apply isGrown_blocksAfter_succ hstep hgrown hsize
    apply h.adds_of_isGrown hstep hgrown
    omega

/-- Every merge after the first one adds a class to the union of the one before it. -/
theorem adds_merged (h : m.Ties k) (hstep : step + 1 < (cluster m).merges.length) :
  (cluster m).merges[step + 1].Adds (cluster m).merges[step].merged
  := by
  obtain ⟨hgrown, hsize⟩ := h.isGrown_merged (Nat.lt_of_succ_lt hstep)
  apply h.adds_of_isGrown hstep hgrown
  omega

/-- Where all candidates tie, every merge joins a single class to a block. -/
theorem size_left_eq_one_or (h : m.Ties k) (hstep : step < (cluster m).merges.length) :
  (cluster m).merges[step].left.size = 1 ∨ (cluster m).merges[step].right.size = 1
  := by
  cases step with
  | zero =>
    obtain ⟨x, -, hx⟩ := mem_singletons.mp (joinable_merges hstep).1.left_mem
    left
    rw [hx, NameSet.size_singleton]
  | succ step =>
    rcases h.adds_merged hstep with ⟨-, hright⟩ | ⟨-, hleft⟩
    · right
      apply hright
    · left
      apply hleft

/-- After some merges one block has a class more than these are, and all others are single.  It is
listed first, and the next merge adds a class to it. -/
theorem exists_replay_eq_cons (h : m.Ties k) (hpos : 1 ≤ step) (hle : step ≤ m.classes.size - 1) :
  ∃ grown singles, replay m.classes (cluster m).merges step = grown :: singles
    ∧ grown.size = step + 1
    ∧ (∀ b ∈ singles, b.size = 1) ∧ singles.length = m.classes.size - step - 1
    ∧ ∀ next : step < (cluster m).merges.length, (cluster m).merges[step].Adds grown
  := by
  obtain ⟨last, rfl⟩ := Nat.exists_eq_add_of_le' hpos
  have hlast : last < (cluster m).merges.length := by rwa [length_merges]
  obtain ⟨hgrown, hsize⟩ := h.isGrown_merged hlast
  have hlength := length_replay_merges m (last + 1)
  have hsorted : (replay m.classes (cluster m).merges (last + 1)).Pairwise
      fun b d => d.size ≤ b.size := by
    apply (NameSet.pairwise_sortBySize _).imp
    rintro b d (hlt | ⟨heq, -⟩)
    · apply hlt.le
    · apply heq.le
  have hone : 1 < (cluster m).merges[last].merged.size := by omega
  obtain ⟨singles, hcons, hsingle⟩ :=
    (hgrown.perm (replay_merges_perm m (last + 1)).symm).eq_cons_of_pairwise
      (isPartition_replay_merges m (last + 1)).nodup hsorted hone
  use (cluster m).merges[last].merged, singles, hcons, hsize, hsingle
  constructor
  · rw [hcons, List.length_cons, min_eq_left hlast] at hlength
    omega
  · intro next
    apply h.adds_merged next

end CouplingMap.Ties

/-! ### Trees -/

namespace Dendrogram

variable {t : Dendrogram S}

/-- If one child of every join is a single class, every step down leads to one class less. -/
theorem IsSound.depth_add_one (ht : t.IsSound)
    (h : ∀ id l r, t.children id = some (l, r) → (t.members l).size = 1 ∨ (t.members r).size = 1)
    {id : Nat} (hid : id < t.size) :
  t.depth id + 1 = (t.members id).size
  := by
  induction id using t.induction_on with
  | leaf id hchildren =>
    obtain ⟨name, hname⟩ := ht.exists_members_eq_singleton hid hchildren
    rw [ht.depth_of_children_eq_none hchildren, hname, NameSet.size_singleton]
  | join id l r hchildren ihl ihr =>
    obtain ⟨hl, hr, -, -, hdepth⟩ := ht.of_children hchildren
    have hsize := (ht.size_of_children hchildren).1
    have hdepthl := ihl hl
    have hdepthr := ihr hr
    rcases h id l r hchildren with hone | hone
    · omega
    · omega

/-- The tree of a run in which all merges tie is as deep as it can be. -/
theorem depth_add_one_of_ties (ht : ofMerges (cluster m).merges = .ok t) (h : m.Ties k)
    {id : Nat} (hid : id < t.size) :
  t.depth id + 1 = (t.members id).size
  := by
  apply (isSound_ofMerges ht).depth_add_one _ hid
  intro id l r hchildren
  obtain ⟨step, hstep, -, hmerge⟩ := exists_getElem_of_children ht hchildren
  have hside := h.size_left_eq_one_or hstep
  rw [hmerge] at hside
  apply hside

end Dendrogram

end

end Cohesion
