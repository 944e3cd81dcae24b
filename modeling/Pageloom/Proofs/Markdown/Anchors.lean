import Mathlib.Data.List.Nodup
import Pageloom.Markdown.Html
import Pageloom.Proofs.Text.Parts

/-!
# Anchors of headings

The identifiers that the headings of a document get, one after the other. A heading has a base, made
of its words; the first heading with a base is called by it, and each further one by the base and a
number. So a heading is called by a pair of a base and a number of earlier uses, and no two headings
have the same pair.

Pairs have names of their own, up to one case: a base may look like another base with a number. The
writer counts the bases it was given and does not remember the names it has made of them, so with
two headings `a` and a heading `a-1`, in any order, one identifier is given twice. This is the only
way in which it happens.

## Main definitions

* `Html.identifyAll`: headings written one after the other.
* `Html.anchor?`: the identifier in a heading that is written.
* `Html.numbered`: what a base with a number of earlier uses is called.

## Main results

* `Html.anchor?_identified`: the identifier of one heading.
* `Html.anchors_nodup_iff`: when all identifiers of a sequence of headings are different.
-/

namespace Pageloom.Markdown.Html

variable {base base' : Text} {m n : ℕ} {c : Char} {p : Written}

/-- Headings with identifiers, written one after the other, and what is known afterwards. -/
def identifyAll : List (ℕ × Text) → Written → List Text × Written
  | [], p => ([], p)
  | (level, content) :: headings, p =>
    let (t, p) := identified level content p
    let (ts, p) := identifyAll headings p
    (t :: ts, p)

/-- The identifier in a heading that is written: what stands between the first two quotes. -/
def anchor? (heading : Text) : Option Text :=
  (Text.cutWhere? (· = '"') heading).bind fun (_, _, rest) =>
    (Text.cutWhere? (· = '"') rest).map Prod.fst

/-- What a base is called that was used before the given number of times. -/
def numbered (base : Text) (uses : ℕ) : Text :=
  if uses = 0 then base else base ++ "-" ++ Text.ofNat uses

/-! ### Names -/

theorem notMem_ofNat (hc : c.isDigit = false) (n : ℕ) : c ∉ Text.ofNat n := fun h => by
  rw [Nat.isDigit_of_mem_toDigits (by decide) (by decide) h] at hc
  cases hc

theorem ofNat_injective : Function.Injective Text.ofNat := fun m n h => by
  rw [← Nat.ofDigitChars_toDigits (b := 10) (n := m) (by decide) (by decide),
    ← Nat.ofDigitChars_toDigits (b := 10) (n := n) (by decide) (by decide)]
  exact congrArg (Nat.ofDigitChars 10 · 0) h

theorem numbered_zero (base : Text) : numbered base 0 = base := rfl

theorem numbered_of_pos (hn : 1 ≤ n) (base : Text) :
    numbered base n = base ++ '-' :: Text.ofNat n := by
  rw [numbered, if_neg (Nat.one_le_iff_ne_zero.mp hn), List.append_assoc]
  rfl

/-- A number behind the last dash can be told from what it belongs to. -/
theorem numbered_inj (hm : 1 ≤ m) (hn : 1 ≤ n) (h : numbered base m = numbered base' n) :
    base = base' ∧ m = n := by
  rw [numbered_of_pos hm, numbered_of_pos hn] at h
  have hdash (k : ℕ) : '-' ∉ (Text.ofNat k).reverse := by simpa using notMem_ofNat (by decide) k
  have hcut (b : Text) (k : ℕ) : Text.cutWhere? (· = '-') (b ++ '-' :: Text.ofNat k).reverse =
      some ((Text.ofNat k).reverse, '-', b.reverse) := by
    rw [List.reverse_append, List.reverse_cons, List.append_assoc]
    exact Text.cutWhere?_eq (hdash k) b.reverse
  have heq := (hcut base m).symm.trans (h ▸ hcut base' n)
  simp only [Option.some.injEq, Prod.mk.injEq, true_and, List.reverse_inj] at heq
  exact ⟨heq.2, ofNat_injective heq.1⟩

/-! ### One heading -/

theorem isKept_of_mem_identifier {heading : Text} (h : c ∈ Heading.identifier heading) :
    Heading.isKept c := by
  rw [Heading.identifier] at h
  rcases Text.mem_squeeze (Text.mem_of_mem_trim h) with rfl | hmem
  · decide
  · exact (List.mem_filter.mp hmem).2

/-- No quote stands in an identifier, so it ends where its attribute ends. -/
theorem quote_notMem_numbered (content : Text) (n : ℕ) :
    '"' ∉ numbered (Heading.identifier content) n := by
  have hbase : '"' ∉ Heading.identifier content := fun h =>
    absurd (isKept_of_mem_identifier h) (by decide)
  have hnumber : '"' ∉ Text.ofNat n := notMem_ofNat (by decide) n
  rcases Nat.eq_zero_or_pos n with rfl | hn
  · exact hbase
  · rw [numbered_of_pos hn]
    simp [hbase, hnumber]

theorem attr_id (value : Text) : attr "id" value = " id=" ++ '"' :: (value ++ ['"']) := rfl

theorem fst_identified (level : ℕ) (content : Text) (p : Written) :
    (identified level content p).1 =
      "<" ++ headingName level ++ attr "id" (numbered (Heading.identifier content)
        (p.identifiers.count (Heading.identifier content))) ++ ">" ++ content ++ "</" ++
          headingName level ++ ">\n" := rfl

/-- A heading is called by its base and the number of earlier headings with this base. -/
theorem anchor?_identified (level : ℕ) (content : Text) (p : Written) :
    anchor? (identified level content p).1 =
      some (numbered (Heading.identifier content)
        (p.identifiers.count (Heading.identifier content))) := by
  have hlevel : '"' ∉ headingName level := fun h =>
    (List.mem_cons.mp h).elim (by decide) (notMem_ofNat (by decide) level)
  have hname : '"' ∉ '<' :: headingName level ++ " id=" := by
    rw [List.mem_append, List.mem_cons, not_or, not_or]
    exact ⟨⟨by decide, hlevel⟩, by decide⟩
  have hheading : ∃ rest, (identified level content p).1 =
      ('<' :: headingName level ++ " id=") ++ '"' :: (numbered (Heading.identifier content)
        (p.identifiers.count (Heading.identifier content)) ++ '"' :: rest) := by
    refine ⟨">" ++ content ++ "</" ++ headingName level ++ ">\n", ?_⟩
    simp only [fst_identified, attr_id, List.append_assoc, List.cons_append]
    rfl
  obtain ⟨rest, hrest⟩ := hheading
  rw [anchor?, hrest, Text.cutWhere?_eq hname, Option.bind_some]
  exact congrArg (Option.map Prod.fst) (Text.cutWhere?_eq (quote_notMem_numbered content _) rest)

/-! ### A sequence of headings -/

/-- The bases of headings, each with the number of its earlier uses; those in `seen` were used
before. -/
def usesFrom (seen : List Text) : List Text → List (Text × ℕ)
  | [] => []
  | base :: bases => (base, seen.count base) :: usesFrom (base :: seen) bases

/-- The numbers of a base run from the uses before the headings to those behind them. -/
theorem mem_usesFrom {seen bases : List Text} :
    (base, n) ∈ usesFrom seen bases ↔
      seen.count base ≤ n ∧ n < seen.count base + bases.count base := by
  induction bases generalizing seen with
  | nil => simp [usesFrom]
  | cons b bases ih =>
    rw [usesFrom, List.mem_cons, ih, Prod.mk.injEq, List.count_cons, List.count_cons]
    by_cases hb : b = base
    · simp only [hb, beq_self_eq_true, if_true, true_and]
      omega
    · simp [hb, Ne.symm hb]

/-- No two headings have the same base and number. -/
theorem nodup_usesFrom (seen bases : List Text) : (usesFrom seen bases).Nodup := by
  induction bases generalizing seen with
  | nil => exact List.nodup_nil
  | cons base bases ih =>
    refine List.nodup_cons.mpr ⟨fun h => ?_, ih (base :: seen)⟩
    have := (mem_usesFrom.mp h).1
    rw [List.count_cons_self] at this
    omega

/-- The base of a heading. -/
def baseOf (heading : ℕ × Text) : Text := Heading.identifier heading.2

/-- The identifiers of a sequence of headings are those of their bases and numbers. -/
theorem map_anchor?_identifyAll (headings : List (ℕ × Text)) (p : Written) :
    (identifyAll headings p).1.map anchor? =
      ((usesFrom p.identifiers (headings.map baseOf)).map fun use =>
        numbered use.1 use.2).map some := by
  induction headings generalizing p with
  | nil => rfl
  | cons heading headings ih =>
    obtain ⟨level, content⟩ := heading
    have hrest := ih (identified level content p).2
    exact congrArg₂ List.cons (anchor?_identified level content p) hrest

/-- Two pairs are called the same only if one of them has no number and a base that is spelled like
the other one. -/
theorem numbered_inj_on_iff {uses : List (Text × ℕ)} :
    (∀ u ∈ uses, ∀ v ∈ uses, numbered u.1 u.2 = numbered v.1 v.2 → u = v) ↔
      ∀ base n, 1 ≤ n → (base, n) ∈ uses → (numbered base n, 0) ∉ uses := by
  constructor
  · intro h base n hn hmem hbase
    have := h _ hmem _ hbase rfl
    simp only [Prod.mk.injEq] at this
    omega
  · rintro h ⟨base, m⟩ hu ⟨base', n⟩ hv heq
    rcases Nat.eq_zero_or_pos m with rfl | hm <;> rcases Nat.eq_zero_or_pos n with rfl | hn
    · exact congrArg (·, 0) heq
    · rw [numbered_zero] at heq
      exact absurd (heq ▸ hu) (h base' n hn hv)
    · rw [numbered_zero] at heq
      exact absurd (heq ▸ hv) (h base m hm hu)
    · obtain ⟨rfl, rfl⟩ := numbered_inj hm hn heq
      rfl

/-- **When the anchors of a page are its own.** Every heading of a sequence gets an identifier. All
of them are different exactly if no heading has for its base another base with a number that was
given out: a number from one up to, but not including, the number of headings with that base. The
order of the headings makes no difference to this. -/
theorem anchors_nodup_iff (headings : List (ℕ × Text)) :
    ∃ anchors : List Text, (identifyAll headings {}).1.map anchor? = anchors.map some ∧
      (anchors.Nodup ↔ ∀ base n, 1 ≤ n → n < (headings.map baseOf).count base →
        numbered base n ∉ headings.map baseOf) := by
  refine ⟨_, map_anchor?_identifyAll headings {}, ?_⟩
  rw [List.nodup_map_iff_inj_on (nodup_usesFrom _ _), numbered_inj_on_iff]
  simp [mem_usesFrom]

/-- Three headings with two identifiers between them. -/
example :
    (identifyAll [(1, "a"), (1, "a"), (1, "a-1")] {}).1.map anchor? =
      [some "a".toList, some "a-1".toList, some "a-1".toList] := by decide

end Pageloom.Markdown.Html
