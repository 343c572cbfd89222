import Cohesion.Merge
import Cohesion.Proofs.NameSet
import Mathlib.Data.List.Basic

/-!
# Keys

Joining texts by a character that occurs in none of them loses nothing, unless there is no text at
all.  Hence non-empty sets of names without commas are equal when their keys are, and so are the
sides of two merges if their names hold no bar either: `Merge.sides_eq_of_key_eq`.
-/

namespace Cohesion

/-- Texts joined by a character that none of them holds can be told from the joint text. -/
theorem intercalate_inj {c : Char} {xs ys : List String} (hxs : xs ≠ []) (hys : ys ≠ [])
    (hx : ∀ x ∈ xs, c ∉ x.toList) (hy : ∀ y ∈ ys, c ∉ y.toList)
    (h : (String.singleton c).intercalate xs = (String.singleton c).intercalate ys) :
  xs = ys
  := by
  have hsplit {zs : List String} (hzs : zs ≠ []) (hz : ∀ z ∈ zs, c ∉ z.toList) :
      ((String.singleton c).intercalate zs).toList.splitOn c = zs.map String.toList := by
    rw [String.toList_intercalate, String.toList_singleton]
    apply List.splitOn_intercalate
    · intro l hl
      obtain ⟨z, hz', rfl⟩ := List.mem_map.mp hl
      apply hz z hz'
    · intro hnil
      apply hzs (List.map_eq_nil_iff.mp hnil)
  apply List.map_injective_iff.mpr (fun _ _ => String.toList_inj.mp)
  rw [← hsplit hxs hx, ← hsplit hys hy, h]

/-- A character of a joint text is the one that joins or one of the texts. -/
theorem not_mem_intercalate {c d : Char} {xs : List String} (hcd : d ≠ c)
    (hx : ∀ x ∈ xs, d ∉ x.toList) :
  d ∉ ((String.singleton c).intercalate xs).toList
  := by
  induction xs with
  | nil => simp
  | cons x xs ih =>
    have hxs := ih fun y hy => hx y (List.mem_cons_of_mem x hy)
    cases xs with
    | nil =>
      rw [String.intercalate_singleton]
      apply hx x List.mem_cons_self
    | cons y ys =>
      rw [String.intercalate_cons_cons, String.toList_append, String.toList_append,
        List.mem_append, List.mem_append, not_or, not_or]
      constructor
      · use hx x List.mem_cons_self
        rw [String.toList_singleton, List.mem_singleton]
        apply hcd
      · apply hxs

namespace NameSet

/-- Names are free of the characters that join them in keys. -/
def Plain (s : NameSet) : Prop :=
  ∀ x ∈ s, ',' ∉ x.toList ∧ '|' ∉ x.toList

/-- A part of a set of plain names is one of plain names. -/
theorem Plain.subset {s t : NameSet} (ht : t.Plain) (h : ∀ x, x ∈ s → x ∈ t) :
  s.Plain
  := fun x hx => ht x (h x hx)

/-- Nonempty sets of plain names with one key are the same set. -/
theorem eq_of_key_eq {s t : NameSet} (hs : s ≠ ∅) (ht : t ≠ ∅) (hsp : s.Plain) (htp : t.Plain)
    (h : s.key = t.key) :
  s = t
  := by
  have hnames : s.names = t.names :=
    intercalate_inj (c := ',') (names_ne_nil hs) (names_ne_nil ht) (fun x hx => (hsp x hx).1)
      (fun x hx => (htp x hx).1) h
  ext x
  rw [← mem_names, hnames, mem_names]

theorem not_mem_key {s : NameSet} (hs : s.Plain) :
  '|' ∉ s.key.toList
  := not_mem_intercalate (c := ',') (by decide) fun x hx => (hs x hx).2

end NameSet

/-- Merges of non-empty sets of plain names with one key have the same sides. -/
theorem Merge.sides_eq_of_key_eq {S : Type} {a b : Merge S}
    (ha : a.left ≠ ∅ ∧ a.right ≠ ∅) (hb : b.left ≠ ∅ ∧ b.right ≠ ∅)
    (hap : a.left.Plain ∧ a.right.Plain) (hbp : b.left.Plain ∧ b.right.Plain)
    (h : a.key = b.key) :
  a.left = b.left ∧ a.right = b.right
  := by
  have hkeys (d : Merge S) :
      d.key = (String.singleton '|').intercalate [d.left.key, d.right.key] := by
    rw [String.intercalate_cons_cons, String.intercalate_singleton]
    rfl
  have hbar {d : Merge S} (hd : d.left.Plain ∧ d.right.Plain) :
      ∀ x ∈ [d.left.key, d.right.key], '|' ∉ x.toList := by
    simp only [List.forall_mem_cons, List.not_mem_nil, false_implies, implies_true, and_true]
    use NameSet.not_mem_key hd.1, NameSet.not_mem_key hd.2
  rw [hkeys, hkeys] at h
  obtain ⟨hleft, hright⟩ := List.cons_eq_cons.mp
    (intercalate_inj (List.cons_ne_nil _ _) (List.cons_ne_nil _ _) (hbar hap) (hbar hbp) h)
  constructor
  · apply NameSet.eq_of_key_eq ha.1 hb.1 hap.1 hbp.1 hleft
  · apply NameSet.eq_of_key_eq ha.2 hb.2 hap.2 hbp.2 (List.cons_eq_cons.mp hright).1

end Cohesion
