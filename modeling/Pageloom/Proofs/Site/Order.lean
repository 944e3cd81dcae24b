import Mathlib.Data.Char
import Mathlib.Data.List.Lex
import Pageloom.Proofs.Site.Target

/-!
# The order of pages

Paths are compared component by component, and components character by character. Both are
lexicographic orders over linear ones, so the order of paths is that of lists of lists of
characters, and the pages of a directory are in this order.

## Main results

* `Path.before_iff_lt`: the order of paths.
* `Site.pairwise_pages`: the pages of a directory are in order.
* `Site.pages_congr`: disks with the same pages list them the same way.
* `Site.eq_or_before_of_pages`: of two pages, the one that does not come first is the other one or
  comes after it.
-/

namespace Pageloom

/-! ### Texts and paths -/

theorem Text.before_iff_lt {a b : Text} : Text.before a b ↔ a < b := by
  induction a generalizing b with
  | nil => cases b <;> simp [Text.before]
  | cons c a ih =>
    cases b with
    | nil => simp [Text.before]
    | cons e b =>
      rw [Text.before, List.cons_lt_cons_iff]
      by_cases hce : c = e
      · simp [hce, ih]
      · simpa [hce] using (Char.lt_def.trans UInt32.lt_iff_toNat_lt).symm

namespace Path

variable {p q r : Path}

theorem componentsBefore_iff_lt {as bs : List Text} : componentsBefore as bs ↔ as < bs := by
  induction as generalizing bs with
  | nil => cases bs <;> simp [componentsBefore]
  | cons a as ih =>
    cases bs with
    | nil => simp [componentsBefore]
    | cons b bs =>
      rw [componentsBefore, List.cons_lt_cons_iff]
      by_cases hab : a = b
      · simp [hab, ih]
      · simp [hab, Text.before_iff_lt]

/-- **The order of paths** is the lexicographic order of their parts. -/
theorem before_iff_lt : p.before q ↔ p.parts < q.parts := componentsBefore_iff_lt

theorem parts_below (p : Path) (rest : List Text) : (p.below rest).parts = p.parts ++ rest := by
  obtain ⟨slashes, components⟩ := p
  cases slashes <;> rfl

end Path

namespace Site

open Disk

variable {d : Disk} {content p q : Path} {ps : List Path}

/-! ### Sorting -/

/-- An inserted path stands behind all that come before it. -/
theorem pairwise_insert (p : Path) (h : ps.Pairwise fun q r => q.parts ≤ r.parts) :
    (insert p ps).Pairwise fun q r => q.parts ≤ r.parts := by
  induction ps with
  | nil => exact List.pairwise_singleton _ p
  | cons q ps ih =>
    obtain ⟨hfirst, hrest⟩ := List.pairwise_cons.mp h
    rw [insert]
    split
    · next hbefore =>
      have hle : p.parts ≤ q.parts := (Path.before_iff_lt.mp hbefore).le
      refine List.pairwise_cons.mpr ⟨fun r hr => ?_, h⟩
      rcases List.mem_cons.mp hr with rfl | hr
      · exact hle
      · exact hle.trans (hfirst r hr)
    · next hbefore =>
      have hle : q.parts ≤ p.parts := not_lt.mp fun hlt => hbefore (Path.before_iff_lt.mpr hlt)
      refine List.pairwise_cons.mpr ⟨fun r hr => ?_, ih hrest⟩
      rcases mem_insert.mp hr with rfl | hr
      · exact hle
      · exact hfirst r hr

theorem pairwise_sort (ps : List Path) : (sort ps).Pairwise fun q r => q.parts ≤ r.parts := by
  induction ps with
  | nil => exact .nil
  | cons p ps ih => exact pairwise_insert p ih

/-! ### Pages -/

/-- **The pages of a directory are in order.** -/
theorem pairwise_pages (d : Disk) (content : Path) :
    (pages d content).Pairwise fun p q => p.parts ≤ q.parts :=
  (pairwise_sort _).filter _

theorem exists_below_of_mem_pages (h : p ∈ pages d content) : ∃ rest, p = content.below rest := by
  obtain ⟨-, rest, -, -, -, -, -, -, rfl⟩ := mem_filesBelow_iff.mp (mem_pages.mp h).1
  exact ⟨rest, rfl⟩

/-- Pages of one directory differ in their parts. -/
theorem eq_of_parts_eq (hp : p ∈ pages d content) (hq : q ∈ pages d content)
    (h : p.parts = q.parts) : p = q := by
  obtain ⟨xs, rfl⟩ := exists_below_of_mem_pages hp
  obtain ⟨ys, rfl⟩ := exists_below_of_mem_pages hq
  rw [Path.parts_below, Path.parts_below] at h
  exact Path.below_inj.mpr (List.append_cancel_left h)

/-- A page that stands behind another one is that page or comes after it. -/
theorem eq_or_before_of_pages {before after : List Path}
    (h : pages d content = before ++ p :: after) (hq : q ∈ after) : q = p ∨ p.before q := by
  have hsorted := pairwise_pages d content
  rw [h] at hsorted
  have hle : p.parts ≤ q.parts :=
    (List.pairwise_cons.mp (List.pairwise_append.mp hsorted).2.1).1 q hq
  have hp : p ∈ pages d content := by simp [h]
  have hq : q ∈ pages d content := by simp [h, hq]
  rcases hle.eq_or_lt with heq | hlt
  · exact .inl (eq_of_parts_eq hp hq heq).symm
  · exact .inr (Path.before_iff_lt.mpr hlt)

/-! ### The same pages -/

theorem perm_insert (p : Path) (ps : List Path) : (insert p ps).Perm (p :: ps) := by
  induction ps with
  | nil => exact .refl _
  | cons q ps ih =>
    rw [insert]
    split
    · exact .refl _
    · exact (ih.cons q).trans (.swap p q ps)

theorem perm_sort (ps : List Path) : (sort ps).Perm ps := by
  induction ps with
  | nil => exact .refl _
  | cons p ps ih => exact (perm_insert p (sort ps)).trans (ih.cons p)

/-- Nothing is found twice below a directory. -/
theorem nodup_under (hd : d.IsTree) (p : Path) : ((d.under p).map Prod.fst).Nodup := by
  rw [under]
  split
  · exact List.nodup_nil
  · split
    · refine List.pairwise_map.mpr ((List.pairwise_map.mp hd.distinct).filterMap _ ?_)
      intro a b hne x hx y hy
      dsimp only at hx hy
      split at hx <;> [skip; cases hx]
      split at hy <;> [skip; cases hy]
      next hdrop _ _ _ hdrop' =>
      rw [Path.dropComponents?_eq_some_iff] at hdrop hdrop'
      cases hx
      cases hy
      intro heq
      simp only [Path.mk.injEq, true_and, List.append_cancel_left_eq] at heq
      exact hne (hdrop.trans (heq ▸ hdrop'.symm))
    · exact List.nodup_nil

theorem nodup_pages (hd : d.IsTree) (content : Path) : (pages d content).Nodup := by
  have hfiles : (filesBelow d content).Nodup :=
    (List.filter_sublist.map Prod.fst).nodup (nodup_under hd content)
  exact ((perm_sort _).nodup_iff.mpr hfiles).filter _

/-- **The same pages come in the same order**, on whatever disk. -/
theorem pages_congr {new : Disk} (hd : d.IsTree) (hnew : new.IsTree)
    (h : ∀ p, p ∈ pages new content ↔ p ∈ pages d content) :
    pages new content = pages d content := by
  refine List.Perm.eq_of_pairwise (fun p q hp hq hpq hqp => ?_) (pairwise_pages new content)
    (pairwise_pages d content)
    ((List.perm_ext_iff_of_nodup (nodup_pages hnew content) (nodup_pages hd content)).mpr h)
  exact eq_of_parts_eq ((h p).mp hp) hq (le_antisymm hpq hqp)

end Site

end Pageloom
