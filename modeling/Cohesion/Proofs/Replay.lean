import Cohesion.Proofs.Clustering
import Cohesion.Proofs.Growth

/-!
# Replaying merges

`replayedFrom classes merges steps` are the blocks of some classes after so many merges.  As long as
every merge fits the blocks before it they are a partition with one block less for every merge,
`AllFit.isPartition` and `AllFit.length`.  Classes that no merge mentions stay alone, so a sequence
that fits the names it mentions fits all classes: `replayedFrom_perm`.
-/

namespace Cohesion

variable {S : Type} {classes : NameSet} {blocks : List NameSet} {m : Merge S}
  {merges : List (Merge S)} {steps : Nat}

/-! ### One merge -/

/-- The two parts of a merge that fits a partition are different. -/
theorem IsPartition.left_ne_right (h : IsPartition classes blocks) (hm : m.Fits blocks) :
  m.left ≠ m.right
  := by
  intro heq
  have hdisjoint := hm.disjoint
  rw [← heq] at hdisjoint
  apply h.ne_empty m.left hm.left_mem hdisjoint.eq_empty

/-- A merge that fits leaves one block less. -/
theorem IsPartition.length_replayStep (h : IsPartition classes blocks) (hm : m.Fits blocks) :
  (Cohesion.replayStep blocks m).length + 1 = blocks.length
  := by
  have hperm := Merge.apply_perm h.nodup hm.left_mem (h.left_ne_right hm)
  rw [← hperm.length_eq, Merge.length_apply hm.right_mem]

/-! ### All merges -/

/-- The blocks of some classes after so many merges. -/
def replayedFrom (classes : NameSet) (merges : List (Merge S)) (steps : Nat) : List NameSet :=
  (merges.take steps).foldl replayStep (singletons classes)

/-- The replay of a sequence starts from the names it mentions. -/
theorem replayed_eq (merges : List (Merge S)) (steps : Nat) :
  Dendrogram.replayed merges steps
    = replayedFrom (.ofList (Dendrogram.mentioned merges)) merges steps
  := rfl

/-- The replay gives the blocks of its steps, in the order of their sizes. -/
theorem replay_perm (classes : NameSet) (merges : List (Merge S)) (steps : Nat) :
  (replay classes merges steps).Perm (replayedFrom classes merges steps)
  := List.mergeSort_perm _ _

/-- One more step replays the next merge. -/
theorem replayedFrom_succ (h : steps < merges.length) :
  replayedFrom classes merges (steps + 1)
    = replayStep (replayedFrom classes merges steps) merges[steps]
  := by
  rw [replayedFrom, List.take_succ_eq_append_getElem h, List.foldl_append]
  rfl

/-- After the last merge nothing changes. -/
theorem replayedFrom_of_le (h : merges.length ≤ steps) :
  replayedFrom classes merges steps = replayedFrom classes merges merges.length
  := by
  rw [replayedFrom, replayedFrom, List.take_of_length_le h, List.take_length]

/-- Beyond the last merge the steps change nothing. -/
theorem replayedFrom_succ_of_le (h : merges.length ≤ steps) :
  replayedFrom classes merges (steps + 1) = replayedFrom classes merges steps
  := by
  rw [replayedFrom_of_le h, replayedFrom_of_le (Nat.le_succ_of_le h)]

/-- Every merge of a sequence fits the blocks of some classes before it. -/
def AllFit (classes : NameSet) (merges : List (Merge S)) : Prop :=
  ∀ (step : Nat) (h : step < merges.length), merges[step].Fits (replayedFrom classes merges step)

/-- While all merges fit, the blocks after any number of steps are a partition of the classes. -/
theorem AllFit.isPartition (h : AllFit classes merges) (steps : Nat) :
  IsPartition classes (replayedFrom classes merges steps)
  := by
  induction steps with
  | zero => apply (isOrderedPartition_singletons classes).toIsPartition
  | succ steps ih =>
    by_cases hlt : steps < merges.length
    · rw [replayedFrom_succ hlt]
      apply ih.replayStep (h steps hlt).left_mem (h steps hlt).right_mem
    · rw [replayedFrom_succ_of_le (not_lt.mp hlt)]
      apply ih

/-- While all merges fit, each step leaves one block fewer. -/
theorem AllFit.length (h : AllFit classes merges) (steps : Nat) :
  (replayedFrom classes merges steps).length + min steps merges.length = classes.size
  := by
  induction steps with
  | zero =>
    rw [Nat.zero_min]
    apply length_singletons
  | succ steps ih =>
    by_cases hlt : steps < merges.length
    · have hlength := (h.isPartition steps).length_replayStep (h steps hlt)
      rw [replayedFrom_succ hlt]
      omega
    · rw [replayedFrom_succ_of_le (not_lt.mp hlt)]
      omega

/-! ### Classes that are not mentioned -/

/-- The order of the blocks does not matter to a replay. -/
theorem foldl_replayStep_perm {blocks blocks' : List NameSet} (h : blocks.Perm blocks')
    (ms : List (Merge S)) :
  (ms.foldl replayStep blocks).Perm (ms.foldl replayStep blocks')
  := by
  induction ms generalizing blocks blocks' with
  | nil => apply h
  | cons m ms ih => apply ih (replayStep_perm h m)

/-- Blocks that are no sides of the merges stay as they are. -/
theorem foldl_replayStep_append_perm {rest : List NameSet} {ms : List (Merge S)}
    (h : ∀ m ∈ ms, m.left ∉ rest ∧ m.right ∉ rest) (blocks : List NameSet) :
  (ms.foldl replayStep (blocks ++ rest)).Perm (ms.foldl replayStep blocks ++ rest)
  := by
  induction ms generalizing blocks with
  | nil => apply List.Perm.refl
  | cons m ms ih =>
    obtain ⟨hleft, hright⟩ := h m List.mem_cons_self
    have hrest : rest.filter (fun b => b ≠ m.left ∧ b ≠ m.right) = rest := by
      rw [List.filter_eq_self]
      intro b hb
      apply decide_eq_true
      constructor
      · rintro rfl
        apply hleft hb
      · rintro rfl
        apply hright hb
    have hstep : (replayStep (blocks ++ rest) m).Perm (replayStep blocks m ++ rest) := by
      rw [replayStep, replayStep, List.filter_append, hrest, List.append_assoc, List.append_assoc]
      apply List.perm_append_comm.append_left
    apply (foldl_replayStep_perm hstep ms).trans
    apply ih fun m hm => h m (List.mem_cons_of_mem _ hm)

/-- The classes that no merge mentions. -/
def unmentioned (classes : NameSet) (merges : List (Merge S)) : List String :=
  classes.names.filter (· ∉ Dendrogram.mentioned merges)

/-- The unmentioned names are the classes that no merge mentions. -/
theorem mem_unmentioned {x : String} :
  x ∈ unmentioned classes merges ↔ x ∈ classes ∧ x ∉ Dendrogram.mentioned merges
  := by
  rw [unmentioned, List.mem_filter, decide_eq_true_iff]
  rfl

/-- The single classes are those that the merges mention and those they do not. -/
theorem singletons_perm (h : ∀ x ∈ Dendrogram.mentioned merges, x ∈ classes) :
  (singletons classes).Perm (singletons (.ofList (Dendrogram.mentioned merges))
    ++ (unmentioned classes merges).map .singleton)
  := by
  rw [singletons, singletons, ← List.map_append]
  apply List.Perm.map
  symm
  apply NameSet.names_perm_of_mem_iff
  · apply (NameSet.nodup _).append (classes.nodup.filter _)
    intro x hx hx'
    apply (mem_unmentioned.mp hx').2 (NameSet.mem_ofList.mp hx)
  · intro x
    rw [List.mem_append, NameSet.mem_names, NameSet.mem_ofList, mem_unmentioned]
    constructor
    · rintro (hx | ⟨hx, -⟩)
      · apply h x hx
      · apply hx
    · intro hx
      by_cases hmem : x ∈ Dendrogram.mentioned merges
      · left
        apply hmem
      · right
        use hx

/-- A class that is not mentioned is no side of a merge. -/
theorem not_mem_map_unmentioned {side : NameSet} (hm : m ∈ merges)
    (hside : ∀ x, x ∈ side → x ∈ m.merged) :
  side ∉ (unmentioned classes merges).map .singleton
  := by
  intro hmem
  obtain ⟨x, hx, rfl⟩ := List.mem_map.mp hmem
  apply (mem_unmentioned.mp hx).2
  apply Dendrogram.mem_mentioned.mpr
  use m, hm
  apply hside x (NameSet.mem_singleton.mpr rfl)

/-- Over more classes than are mentioned the others stay alone. -/
theorem replayedFrom_perm (h : ∀ x ∈ Dendrogram.mentioned merges, x ∈ classes) (steps : Nat) :
  (replayedFrom classes merges steps).Perm
    (Dendrogram.replayed merges steps ++ (unmentioned classes merges).map .singleton)
  := by
  rw [replayed_eq]
  apply (foldl_replayStep_perm (singletons_perm h) _).trans
  apply foldl_replayStep_append_perm
  intro m hm
  have hm' : m ∈ merges := List.mem_of_mem_take hm
  constructor
  · apply not_mem_map_unmentioned hm'
    intro x hx
    apply NameSet.mem_union.mpr (Or.inl hx)
  · apply not_mem_map_unmentioned hm'
    intro x hx
    apply NameSet.mem_union.mpr (Or.inr hx)

/-- Merges that fit the names they mention fit all classes. -/
theorem allFit_of_fitsAt (hfits : ∀ k, Dendrogram.FitsAt merges k)
    (h : ∀ x ∈ Dendrogram.mentioned merges, x ∈ classes) :
  AllFit classes merges
  := by
  intro step hstep
  have hperm := replayedFrom_perm h step
  obtain ⟨hleft, hright, hdisjoint⟩ := hfits step merges[step] (List.getElem?_eq_getElem hstep)
  constructor
  · apply hperm.mem_iff.mpr (List.mem_append_left _ hleft)
  · apply hperm.mem_iff.mpr (List.mem_append_left _ hright)
  · apply hdisjoint

end Cohesion
