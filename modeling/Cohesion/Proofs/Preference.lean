import Cohesion.Proofs.Clustering
import Cohesion.Proofs.FloatOrder
import Cohesion.Proofs.Key

/-!
# The order in which merges are made

`Merge.Precedes` is the rule by which one of two possible merges is made first.  On merges whose
scores are numbers and whose keys differ it is a strict total order, so the scan for the best merge
finds the one that precedes all others, in whatever order it looks at them: `Merge.best?_beats`.
The two sides of a merge are told from its key, hence the candidates of an ordered partition have
different keys.  Whatever the keys are, the best merge stands highest in every preorder that the
preference refines, `Merge.IsCoarser.of_best?`; so no merge has a higher score.
-/

namespace Cohesion

namespace Merge

/-! ### Preference -/

section

variable {S : Type} [Score S] {P : S → Prop} {a b c : Merge S}

/-- A merge beats another one with a higher score, on a tie with more classes, and then with a
smaller key. -/
theorem beats_iff (h : Score.IsTotalOn P) (ha : P a.score) (hb : P b.score) :
  a.beats b ↔ Score.lt b.score a.score
    ∨ (Score.le a.score b.score ∧ Score.le b.score a.score)
      ∧ (b.size < a.size ∨ a.size = b.size ∧ a.key < b.key)
  := by
  rw [beats, decide_eq_true_iff, preference, Ordering.then_eq_gt, Ordering.then_eq_gt,
    h.compare_eq_gt_iff ha hb, h.compare_eq_eq_iff ha hb, compare_gt_iff_gt, compare_eq_iff_eq,
    compare_gt_iff_gt]

/-- Among comparable scores being better is transitive. -/
theorem beats_trans (h : Score.IsTotalOn P) (ha : P a.score) (hb : P b.score) (hc : P c.score)
    (hab : a.beats b) (hbc : b.beats c) :
  a.beats c
  := by
  rw [beats_iff h ha hb] at hab
  rw [beats_iff h hb hc] at hbc
  rw [beats_iff h ha hc]
  rcases hab with hab | ⟨⟨hab, hba⟩, hrest⟩
  · left
    rcases hbc with hbc | ⟨⟨hbc, hcb⟩, -⟩
    · apply h.lt_of_lt_of_le hc hb ha hbc (h.le_of_lt hb ha hab)
    · apply h.lt_of_le_of_lt hc hb ha hcb hab
  · rcases hbc with hbc | ⟨⟨hbc, hcb⟩, hrest'⟩
    · left
      apply h.lt_of_lt_of_le hc hb ha hbc hba
    · right
      use ⟨h.le_trans ha hb hc hab hbc, h.le_trans hc hb ha hcb hba⟩
      rcases hrest with hab | ⟨hab, hkey⟩
      · left
        rcases hrest' with hbc | ⟨hbc, -⟩
        · apply lt_trans hbc hab
        · rw [← hbc]
          apply hab
      · rcases hrest' with hbc | ⟨hbc, hkey'⟩
        · left
          rw [hab]
          apply hbc
        · right
          use hab.trans hbc
          apply lt_trans hkey hkey'

/-- Of two candidates with comparable scores at most one is better than the other. -/
theorem beats_asymm (h : Score.IsTotalOn P) (ha : P a.score) (hb : P b.score) (hab : a.beats b) :
  ¬ b.beats a
  := by
  intro hba
  have haa := beats_trans h ha hb ha hab hba
  rw [beats_iff h ha ha] at haa
  rcases haa with haa | ⟨-, haa | ⟨-, haa⟩⟩
  · apply h.lt_asymm ha ha haa haa
  · apply lt_irrefl _ haa
  · apply lt_irrefl _ haa

/-- Of two merges with different keys one beats the other. -/
theorem beats_total (h : Score.IsTotalOn P) (ha : P a.score) (hb : P b.score)
    (hkey : a.key ≠ b.key) :
  a.beats b ∨ b.beats a
  := by
  rw [beats_iff h ha hb, beats_iff h hb ha]
  by_cases hab : Score.le a.score b.score
  · by_cases hba : Score.le b.score a.score
    · rcases lt_trichotomy a.size b.size with hsize | hsize | hsize
      · right; right
        use ⟨hba, hab⟩, Or.inl hsize
      · rcases lt_or_gt_of_ne hkey with hlt | hlt
        · left; right
          use ⟨hab, hba⟩, Or.inr ⟨hsize, hlt⟩
        · right; right
          use ⟨hba, hab⟩, Or.inr ⟨hsize.symm, hlt⟩
      · left; right
        use ⟨hab, hba⟩, Or.inl hsize
    · right; left
      apply (h.lt_iff ha hb).mpr hba
  · left; left
    apply (h.lt_iff hb ha).mpr hab

/-- A merge does not beat one with a higher score. -/
theorem le_of_beats (h : Score.IsTotalOn P) (ha : P a.score) (hb : P b.score) (hab : a.beats b) :
  Score.le b.score a.score
  := by
  rcases (beats_iff h ha hb).mp hab with hlt | ⟨⟨-, hle⟩, -⟩
  · apply h.le_of_lt hb ha hlt
  · apply hle

/-- A candidate that is not better than another has at most its score. -/
theorem le_of_not_beats (h : Score.IsTotalOn P) (ha : P a.score) (hb : P b.score)
    (hab : ¬ a.beats b) :
  Score.le a.score b.score
  := by
  by_contra hle
  apply hab
  rw [beats_iff h ha hb]
  left
  apply (h.lt_iff hb ha).mpr hle

/-! ### The scan -/

/-- A preorder on the merges that satisfy `Q`, in which a merge stands at least as high as one that
it beats, and at most as high as one that it does not beat. -/
structure IsCoarser (Q : Merge S → Prop) (R : Merge S → Merge S → Prop) : Prop where
  refl : ∀ {a : Merge S}, Q a → R a a
  trans : ∀ {a b c : Merge S}, Q a → Q b → Q c → R a b → R b c → R a c
  of_beats : ∀ {a b : Merge S}, Q a → Q b → a.beats b → R b a
  of_not_beats : ∀ {a b : Merge S}, Q a → Q b → ¬ a.beats b → R a b

section

variable {Q : Merge S → Prop} {R : Merge S → Merge S → Prop}

/-- The survivor of a scan stands highest. -/
theorem IsCoarser.foldl_better (h : IsCoarser Q R) {cs : List (Merge S)} {best : Merge S}
    (hcs : ∀ c ∈ best :: cs, Q c) :
  ∀ c ∈ best :: cs, R c (cs.foldl (fun best c => if c.beats best then c else best) best)
  := by
  induction cs generalizing best with
  | nil =>
    intro c hc
    obtain rfl := List.mem_singleton.mp hc
    apply h.refl (hcs c hc)
  | cons d ds ih =>
    obtain ⟨hbest, hds⟩ := List.forall_mem_cons.mp hcs
    obtain ⟨hd, hds⟩ := List.forall_mem_cons.mp hds
    rw [List.foldl_cons, List.forall_mem_cons, List.forall_mem_cons]
    by_cases hdb : d.beats best
    · have hcs' : ∀ c ∈ d :: ds, Q c := List.forall_mem_cons.mpr ⟨hd, hds⟩
      have hlast := hcs' _ (foldl_better_mem d ds)
      obtain ⟨hle, hrest⟩ := List.forall_mem_cons.mp (ih hcs')
      rw [if_pos hdb]
      use h.trans hbest hd hlast (h.of_beats hd hbest hdb) hle, hle, hrest
    · have hcs' : ∀ c ∈ best :: ds, Q c := List.forall_mem_cons.mpr ⟨hbest, hds⟩
      have hlast := hcs' _ (foldl_better_mem best ds)
      obtain ⟨hle, hrest⟩ := List.forall_mem_cons.mp (ih hcs')
      rw [if_neg hdb]
      use hle, h.trans hd hbest hlast (h.of_not_beats hd hbest hdb) hle, hrest

/-- No merge stands higher than the best one. -/
theorem IsCoarser.of_best? (h : IsCoarser Q R) {cs : List (Merge S)} (hcs : ∀ c ∈ cs, Q c)
    {best : Merge S} (hbest : best? cs = some best) :
  ∀ c ∈ cs, R c best
  := by
  cases cs with
  | nil => cases hbest
  | cons d ds =>
    rw [← Option.some.inj hbest]
    apply h.foldl_better hcs

end

/-- The order of scores is coarser than that of candidates. -/
theorem isCoarser_score (h : Score.IsTotalOn P) :
  IsCoarser (S := S) (fun c => P c.score) fun a b => Score.le a.score b.score
  := by
  constructor
  · intro a ha
    apply or_self_iff.mp (h.le_total ha ha)
  · intro a b c
    apply h.le_trans
  · intro a b
    apply le_of_beats h
  · intro a b
    apply le_of_not_beats h

/-- No merge has a higher score than the best one. -/
theorem score_le_of_best? (h : Score.IsTotalOn P) {cs : List (Merge S)}
    (hcs : ∀ c ∈ cs, P c.score) {best : Merge S} (hbest : best? cs = some best) :
  ∀ c ∈ cs, Score.le c.score best.score
  := (isCoarser_score h).of_best? hcs hbest

/-- Merges whose scores satisfy `P`, of which different ones have different keys. -/
structure Comparable (P : S → Prop) (cs : List (Merge S)) : Prop where
  score : ∀ c ∈ cs, P c.score
  key_ne : ∀ c ∈ cs, ∀ d ∈ cs, c ≠ d → c.key ≠ d.key

omit [Score S] in
theorem Comparable.subset {cs ds : List (Merge S)} (hcs : Comparable P cs) (h : ds ⊆ cs) :
  Comparable P ds
  := by
  constructor
  · intro c hc
    apply hcs.score c (h hc)
  · intro c hc d hd
    apply hcs.key_ne c (h hc) d (h hd)

/-- The survivor of a scan beats all other merges, also the one with which the scan starts. -/
theorem foldl_better_beats (h : Score.IsTotalOn P) {cs : List (Merge S)} {best : Merge S}
    (hcs : Comparable P (best :: cs)) :
  ∀ c ∈ best :: cs, c ≠ cs.foldl (fun best c => if c.beats best then c else best) best →
    (cs.foldl (fun best c => if c.beats best then c else best) best).beats c
  := by
  induction cs generalizing best with
  | nil =>
    intro c hc hne
    apply absurd (List.mem_singleton.mp hc) hne
  | cons d ds ih =>
    have hbest : best ∈ best :: d :: ds := List.mem_cons_self
    have hd : d ∈ best :: d :: ds := List.mem_cons_of_mem best List.mem_cons_self
    -- A merge that loses to the next best one loses to the survivor as well.
    have hlost {next c : Merge S} (hsub : next :: ds ⊆ best :: d :: ds) (hc : c ∈ best :: d :: ds)
        (hnext : next.beats c) :
        (ds.foldl (fun best c => if c.beats best then c else best) next).beats c := by
      have hcs' := hcs.subset hsub
      by_cases heq : next = ds.foldl (fun best c => if c.beats best then c else best) next
      · rw [← heq]
        apply hnext
      · have hmem := foldl_better_mem next ds
        apply beats_trans h (hcs'.score _ hmem) (hcs'.score next List.mem_cons_self)
          (hcs.score c hc) _ hnext
        apply ih hcs' next List.mem_cons_self heq
    intro c hc
    rw [List.foldl_cons]
    by_cases hdb : d.beats best
    · rw [if_pos hdb]
      have hsub : d :: ds ⊆ best :: d :: ds := List.subset_cons_self best _
      intro hne
      rcases List.mem_cons.mp hc with rfl | hc'
      · apply hlost hsub hbest hdb
      · apply ih (hcs.subset hsub) c hc' hne
    · rw [if_neg hdb]
      have hsub : best :: ds ⊆ best :: d :: ds :=
        List.cons_subset_cons best (List.subset_cons_self d ds)
      intro hne
      rcases List.mem_cons.mp hc with rfl | hc'
      · apply ih (hcs.subset hsub) c List.mem_cons_self hne
      · rcases List.mem_cons.mp hc' with rfl | hc''
        · by_cases heq : c = best
          · subst heq
            apply ih (hcs.subset hsub) c List.mem_cons_self hne
          · apply hlost hsub hd
            apply (beats_total h (hcs.score best hbest) (hcs.score c hd)
              (hcs.key_ne best hbest c hd (Ne.symm heq))).resolve_right hdb
        · apply ih (hcs.subset hsub) c (List.mem_cons_of_mem best hc'') hne

/-- The best of comparable merges beats all others. -/
theorem best?_beats (h : Score.IsTotalOn P) {cs : List (Merge S)} (hcs : Comparable P cs)
    {best : Merge S} (hbest : best? cs = some best) :
  ∀ c ∈ cs, c ≠ best → best.beats c
  := by
  cases cs with
  | nil => cases hbest
  | cons d ds =>
    rw [← Option.some.inj hbest]
    apply foldl_better_beats h hcs

/-- A merge that beats all others of comparable merges is their best one. -/
theorem best?_eq_of_beats (h : Score.IsTotalOn P) {cs : List (Merge S)} (hcs : Comparable P cs)
    {best : Merge S} (hmem : best ∈ cs) (hbeats : ∀ c ∈ cs, c ≠ best → best.beats c) :
  best? cs = some best
  := by
  obtain ⟨c, hc⟩ := exists_best? (List.ne_nil_of_mem hmem)
  rw [hc]
  by_contra hne
  have hne' : c ≠ best := fun heq => hne (congrArg some heq)
  have hcmem := mem_of_best? hc
  apply beats_asymm h (hcs.score best hmem) (hcs.score c hcmem) (hbeats c hcmem hne')
  apply best?_beats h hcs hc best hmem hne'.symm

/-- The candidates of an ordered partition of plain names are comparable if their scores are. -/
theorem comparable_candidates {m : CouplingMap S} {classes : NameSet} {blocks : List NameSet}
    (hblocks : IsOrderedPartition classes blocks) (hplain : classes.Plain)
    (hscore : ∀ c ∈ candidates m blocks, P c.score) :
  Comparable P (candidates m blocks)
  := by
  use hscore
  intro c hc d hd hne hkey
  obtain ⟨⟨hcl, hcr, -⟩, hcs⟩ := (mem_candidates_iff hblocks).mp hc
  obtain ⟨⟨hdl, hdr, -⟩, hds⟩ := (mem_candidates_iff hblocks).mp hd
  have hblock {b : NameSet} (hb : b ∈ blocks) : b.Plain :=
    hplain.subset fun _ hx => hblocks.subset hb hx
  obtain ⟨hleft, hright⟩ := sides_eq_of_key_eq
    ⟨hblocks.ne_empty _ hcl, hblocks.ne_empty _ hcr⟩
    ⟨hblocks.ne_empty _ hdl, hblocks.ne_empty _ hdr⟩
    ⟨hblock hcl, hblock hcr⟩ ⟨hblock hdl, hblock hdr⟩ hkey
  apply hne
  obtain ⟨left, right, score⟩ := c
  obtain ⟨left', right', score'⟩ := d
  obtain rfl : left = left' := hleft
  obtain rfl : right = right' := hright
  obtain rfl : score = score' := hcs.trans hds.symm
  rfl

end

/-! ### Floating-point scores -/

/-- Of two possible merges the one with the higher score precedes, of two with equal scores the one
with more classes, and of two that tie in both the one with the smaller key. -/
def Precedes (a b : Merge Float) : Prop :=
  b.score < a.score ∨ a.score == b.score ∧ (b.size < a.size ∨ a.size = b.size ∧ a.key < b.key)

/-- A candidate is better than another exactly when it precedes it, where both scores are numbers. -/
theorem beats_iff_precedes {a b : Merge Float} (ha : a.score.isNaN = false)
    (hb : b.score.isNaN = false) :
  a.beats b ↔ a.Precedes b
  := by
  rw [beats_iff Score.isTotalOn_float ha hb, Precedes, FloatOrder.beq_iff_le_and_le ha hb]
  simp only [Score.lt, Score.le, decide_eq_true_eq]

end Merge

/-- If all scores of a run are numbers and its names hold no comma and no bar, each merge precedes
every other merge of two blocks before it.  It is the only one that does, and the best one in
whatever order the candidates are looked at. -/
theorem merges_precede (m : CouplingMap Float)
    (hscore : ∀ step < (cluster m).merges.length, ∀ b ∈ blocksAfter m step,
      ∀ c ∈ blocksAfter m step, b.StartsBefore c → (averageLink m b c).isNaN = false)
    (hplain : ∀ x ∈ m.classes, ',' ∉ x.toList ∧ '|' ∉ x.toList)
    (step : Nat) (hstep : step < (cluster m).merges.length) :
  let best := (cluster m).merges[step]
  let blocks := blocksAfter m step
  (best.Joinable blocks ∧ best.score = averageLink m best.left best.right)
    ∧ (∀ b ∈ blocks, ∀ c ∈ blocks, b.StartsBefore c → (b, c) ≠ (best.left, best.right) →
      best.Precedes ⟨b, c, averageLink m b c⟩)
    ∧ (∀ d ∈ Merge.candidates m blocks,
      (∀ c ∈ Merge.candidates m blocks, c ≠ d → d.Precedes c) → d = best)
    ∧ (∀ cs, cs.Perm (Merge.candidates m blocks) → Merge.best? cs = some best)
  := by
  intro best blocks
  have hblocks := isOrderedPartition_blocksAfter m step
  have hnumber : ∀ c ∈ Merge.candidates m blocks, c.score.isNaN = false := by
    intro c hc
    obtain ⟨⟨hleft, hright, hlt⟩, hc⟩ := (Merge.mem_candidates_iff hblocks).mp hc
    rw [hc]
    apply hscore step hstep _ hleft _ hright hlt
  have hcomparable := Merge.comparable_candidates (P := fun x : Float => x.isNaN = false) hblocks
    hplain hnumber
  have hbest := (best?_blocksAfter hstep).1
  have hmem := Merge.mem_of_best? hbest
  have hbeats := Merge.best?_beats Score.isTotalOn_float hcomparable hbest
  use joinable_merges hstep
  constructor
  · intro b hb c hc hlt hne
    have hcandidate : ⟨b, c, averageLink m b c⟩ ∈ Merge.candidates m blocks :=
      (Merge.mem_candidates_iff hblocks).mpr ⟨⟨hb, hc, hlt⟩, rfl⟩
    rw [← Merge.beats_iff_precedes (hnumber _ hmem) (hnumber _ hcandidate)]
    apply hbeats _ hcandidate
    intro heq
    apply hne
    apply congrArg (fun d : Merge Float => (d.left, d.right)) heq
  · constructor
    · intro d hd hprecedes
      -- Two merges that precede each other would each be the better one.
      by_contra hne
      have hdbest := hprecedes best hmem (Ne.symm hne)
      rw [← Merge.beats_iff_precedes (hnumber d hd) (hnumber _ hmem)] at hdbest
      apply Merge.beats_asymm Score.isTotalOn_float (hnumber d hd) (hnumber _ hmem) hdbest
      apply hbeats d hd hne
    · intro cs hperm
      apply Merge.best?_eq_of_beats Score.isTotalOn_float (hcomparable.subset hperm.subset)
      · apply hperm.mem_iff.mpr hmem
      · intro c hc
        apply hbeats c (hperm.mem_iff.mp hc)

/-- Zeros of both signs tie, and then the key decides. -/
theorem merges_precede_zeros :
  let m : CouplingMap Float := CouplingMap.ofWeights
    [("A", "B", -0.0), ("B", "C", 0.0), ("C", "A", 0.0)]
  ∃ h : 0 < (cluster m).merges.length, ∀ b ∈ blocksAfter m 0, ∀ c ∈ blocksAfter m 0,
    b.StartsBefore c → (b, c) ≠ ((cluster m).merges[0].left, (cluster m).merges[0].right) →
      (cluster m).merges[0].Precedes ⟨b, c, averageLink m b c⟩
  := by
  intro m
  have hscore : ∀ step < (cluster m).merges.length, ∀ b ∈ blocksAfter m step,
      ∀ c ∈ blocksAfter m step, b.StartsBefore c → (averageLink m b c).isNaN = false := by
    decide +kernel
  have hplain : ∀ x ∈ m.classes.names, ',' ∉ x.toList ∧ '|' ∉ x.toList := by decide +kernel
  have h : 0 < (cluster m).merges.length := by decide +kernel
  use h
  apply (merges_precede m hscore hplain 0 h).2.1

end Cohesion
