import Mathlib.Data.List.Nodup
import Pageloom.Proofs.Disk.Preservation
import Pageloom.Proofs.Site.Clash

/-!
# Pages with one file

A plan is made exactly if all its pages have files of their own. So it does not depend on the order
of the pages whether there is one, or what file a page gets. Only the report on a plan that is
refused does: it blames the first page whose file is taken, and names the page that takes it, of
which there is just one.

Two pages of a directory have one file in two cases. Either they differ in nothing but the way in
which their suffix is written, or one of them is the index of the directory that the other one is
written to. A stem of a single dot is left out here, since it names the directory that the page is
in, like the stem `index`.

## Main definitions

* `Site.IsFirstTaken`: the first page whose file is taken, and the page that takes it.
* `Site.Names`: an error that names both, as they are seen from the directories they are in.
* `Site.SharesStem`, `Site.IsIndexOf`: the two cases of pages with one file.

## Main results

* `Site.plan_decides`: what a plan comes to.
* `Site.target_eq_iff`: which pages have one file.
-/

namespace Pageloom.Site

variable {d : Disk} {content output page other p q : Path} {ps qs targets : List Path}
  {dirs dirs' : List Text} {name name' : Text} {e : PageError}

/-! ### Plans of any files -/

/-- A path below another one has a name there, which may be below further directories. -/
theorem exists_below_of_isAbove (h : content.IsAbove p) :
    ∃ dirs name, p = content.below (dirs ++ [name]) := by
  obtain ⟨slashes, components⟩ := p
  obtain ⟨rfl, ⟨rest, rfl⟩, hne⟩ := h
  rcases List.eq_nil_or_concat rest with rfl | ⟨dirs, name, rfl⟩
  · exact absurd (congrArg (Path.mk _) (List.append_nil _).symm) hne
  · exact ⟨dirs, name, by rw [List.concat_eq_append]; rfl⟩

theorem target_of_isAbove (hspelled : p.IsSpelled) (h : content.IsAbove p) (output : Path) :
    target content output p = .ok (file content output p) := by
  obtain ⟨dirs, name, rfl⟩ := exists_below_of_isAbove h
  obtain ⟨hne, -, hslash⟩ := hspelled name (by simp [Path.below])
  exact target_below content output dirs hne hslash

/-- Other pages have other files. -/
theorem nodup_map_file_iff (hps : ps.Nodup)
    (hf : ∀ page ∈ ps, target content output page = .ok (file content output page)) :
    (ps.map (file content output)).Nodup ↔
      ∀ p ∈ ps, ∀ q ∈ ps, target content output p = target content output q → p = q := by
  constructor
  · intro hnodup p hp q hq htarget
    rw [hf p hp, hf q hq] at htarget
    exact List.inj_on_of_nodup_map hnodup hp hq (Except.ok.inj htarget)
  · intro hinjective
    refine hps.map_on fun p hp q hq hfile => hinjective p hp q hq ?_
    rw [hf p hp, hf q hq, hfile]

/-- The page is the first of some pages whose file is taken, and `other` is the page before it that
takes it. No other page before it does. -/
def IsFirstTaken (content output : Path) (ps : List Path) (page other : Path) : Prop :=
  ∃ before after, ps = before ++ page :: after ∧
    (∀ p ∈ before, ∀ q ∈ before, target content output p = target content output q → p = q) ∧
    ∀ p, p ∈ before ∧ target content output p = target content output page ↔ p = other

/-- The error tells the file of its page and the other page, both seen from where they are. -/
def Names (content output : Path) (e : PageError) (other : Path) : Prop :=
  ∃ file t o, target content output e.source = .ok file ∧ file.relativeTo output = .ok t ∧
    other.relativeTo content = .ok o ∧
    e.detail = "Output " ++ t.print ++ " is also written by " ++ o.print

theorem IsTakenBy.isFirstTaken (hps : ps.Nodup)
    (hf : ∀ page ∈ ps, target content output page = .ok (file content output page))
    (h : IsTakenBy (file content output) ps page other) :
    IsFirstTaken content output ps page other := by
  obtain ⟨before, after, rfl, hnodup, hother, hfile⟩ := h
  have hbefore : ∀ p ∈ before, target content output p = .ok (file content output p) :=
    fun p hp => hf p (List.mem_append_left _ hp)
  have hpage : target content output page = .ok (file content output page) :=
    hf page (by simp)
  refine ⟨before, after, rfl,
    (nodup_map_file_iff (List.nodup_append.mp hps).1 hbefore).mp hnodup, fun p => ⟨?_, ?_⟩⟩
  · rintro ⟨hp, htarget⟩
    rw [hbefore p hp, hpage] at htarget
    exact List.inj_on_of_nodup_map hnodup hp hother ((Except.ok.inj htarget).trans hfile.symm)
  · rintro rfl
    exact ⟨hother, by rw [hbefore p hother, hpage, hfile]⟩

theorem Reports.exists_names (hps : ps.Nodup)
    (hf : ∀ page ∈ ps, target content output page = .ok (file content output page))
    (h : Reports content output ps e) :
    ∃ other, IsFirstTaken content output ps e.source other ∧ Names content output e other := by
  obtain ⟨other, t, o, htaken, ht, ho, hcause⟩ := h
  have hsource : e.source ∈ ps := by
    obtain ⟨before, after, hsplit, -⟩ := htaken
    exact hsplit ▸ by simp
  refine ⟨other, htaken.isFirstTaken hps hf, _, t, o, hf _ hsource, ht, ho, ?_⟩
  rw [PageError.detail, hcause]

/-- **A plan decides exactly whether pages collide.** For any files below the content directory, in
any order, it is made if no two of them have one file, and then it is the list of their files. In
another order of the files it is made as well, and each of them has the file that it had. If it is
not made, this is for the first file whose target is taken, and the error names that target and the
one file that took it. -/
theorem plan_decides (output : Path) (hps : ps.Nodup) (hspelled : ∀ p ∈ ps, p.IsSpelled)
    (hbelow : ∀ p ∈ ps, content.IsAbove p) :
    ((∃ targets, plan content output ps = .ok targets) ↔
        ∀ p ∈ ps, ∀ q ∈ ps, target content output p = target content output q → p = q) ∧
      (∀ targets, plan content output ps = .ok targets →
        ps.map (target content output) = targets.map .ok ∧
        ∀ qs, qs.Perm ps → ∃ targets', plan content output qs = .ok targets' ∧
          (qs.zip targets').Perm (ps.zip targets)) ∧
      ∀ f, plan content output ps = .error f →
        ∃ e other, f = .page e ∧ IsFirstTaken content output ps e.source other ∧
          Names content output e other := by
  have hf : ∀ p ∈ ps, target content output p = .ok (file content output p) :=
    fun p hp => target_of_isAbove (hspelled p hp) (hbelow p hp) output
  refine ⟨?_, fun targets hplan => ⟨?_, fun qs hperm => ?_⟩, fun f hplan => ?_⟩
  · rw [← nodup_map_file_iff hps hf]
    simp only [plan_eq_ok_iff hf, exists_and_left, exists_eq, and_true]
  · obtain ⟨-, rfl⟩ := (plan_eq_ok_iff hf).mp hplan
    rw [List.map_map]
    exact List.map_congr_left hf
  · obtain ⟨hnodup, rfl⟩ := (plan_eq_ok_iff hf).mp hplan
    have hqs : ∀ q ∈ qs, target content output q = .ok (file content output q) :=
      fun q hq => hf q (hperm.mem_iff.mp hq)
    refine ⟨qs.map (file content output),
      (plan_eq_ok_iff hqs).mpr ⟨(hperm.map _).nodup_iff.mpr hnodup, rfl⟩, ?_⟩
    rw [← List.map_prod_left_eq_zip, ← List.map_prod_left_eq_zip]
    exact hperm.map _
  · rcases plan_file_cases hf with ⟨-, hmade⟩ | ⟨e, hreports, hrefused⟩
    · rw [hmade] at hplan
      cases hplan
    · obtain ⟨other, hfirst, hnames⟩ := hreports.exists_names hps hf
      exact ⟨e, other, Except.error.inj (hplan.symm.trans hrefused), hfirst, hnames⟩

/-- The page `b` comes after another page for its file. -/
theorem plan_decides_of_index_before :
    let ps : List Path := ["content/b/index.md", "content/a.md", "content/b.md"]
    ps.Nodup ∧ (∀ p ∈ ps, p.IsSpelled) ∧ (∀ p ∈ ps, Path.IsAbove "content" p) ∧
      ∃ e other, plan "content" "out" ps = .error (.page e) ∧
        IsFirstTaken "content" "out" ps e.source other ∧ Names "content" "out" e other ∧
        e.message = "content/b.md: Output b/index.html is also written by b/index.md" := by
  intro ps
  have hps : ps.Nodup := by decide +kernel
  have hspelled : ∀ p ∈ ps, p.IsSpelled := by decide +kernel
  have hbelow : ∀ p ∈ ps, Path.IsAbove "content" p := by decide +kernel
  have hplan : plan "content" "out" ps =
      .error (.page ⟨"content/b.md", .taken "b/index.html" "b/index.md"⟩) := by decide +kernel
  obtain ⟨-, -, hrefused⟩ := plan_decides "out" hps hspelled hbelow
  obtain ⟨e, other, he, hfirst, hnames⟩ := hrefused _ hplan
  cases he
  exact ⟨hps, hspelled, hbelow, _, other, hplan, hfirst, hnames, by decide +kernel⟩

/-! ### Two pages of a directory -/

/-- The pages are in one directory and differ in nothing but their suffix. -/
def SharesStem (p q : Path) : Prop := p.parent = q.parent ∧ p.stem = q.stem

/-- The page is the index of the directory that another page is written to. -/
structure IsIndexOf (index page : Path) : Prop where
  stem : page.stem ≠ "index".toList
  parent : index.parent = page.parent.below [page.stem]
  index : index.stem = "index".toList

theorem parent_below (content : Path) (dirs : List Text) (name : Text) :
    (content.below (dirs ++ [name])).parent = content.below dirs := by
  rw [Path.parent, Path.below, ← List.append_assoc, List.dropLast_concat]
  rfl

/-- A page is written to a directory of its stem, or as the index of the one it is in. -/
theorem folder_cases (hpage : page = content.below (dirs ++ [name]))
    (hdot : page.stem ≠ ".".toList) :
    page.stem = "index".toList ∧ folder content page = dirs ∨
      page.stem ≠ "index".toList ∧ folder content page = dirs ++ [page.stem] := by
  subst hpage
  rw [stem_below] at hdot ⊢
  rw [folder_below]
  by_cases hindex : (Path.splitSuffix name).1 = "index".toList
  · exact .inl ⟨hindex, by rw [if_pos (.inl hindex), List.append_nil]⟩
  · exact .inr ⟨hindex, by rw [if_neg (not_or.mpr ⟨hindex, hdot⟩)]⟩

theorem sharesStem_iff (hp : p = content.below (dirs ++ [name]))
    (hq : q = content.below (dirs' ++ [name'])) :
    SharesStem p q ↔ dirs = dirs' ∧ p.stem = q.stem := by
  rw [SharesStem, and_congr_left_iff]
  intro _
  rw [hp, hq, parent_below, parent_below, Path.below_inj]

theorem isIndexOf_iff (hp : p = content.below (dirs ++ [name]))
    (hq : q = content.below (dirs' ++ [name'])) :
    IsIndexOf p q ↔
      q.stem ≠ "index".toList ∧ dirs = dirs' ++ [q.stem] ∧ p.stem = "index".toList := by
  have hparent : p.parent = q.parent.below [q.stem] ↔ dirs = dirs' ++ [q.stem] := by
    have hbelow : (content.below dirs').below [q.stem] = content.below (dirs' ++ [q.stem]) := by
      simp only [Path.below, List.append_assoc]
    rw [hp, parent_below, congrArg Path.parent hq, parent_below, hbelow, Path.below_inj]
  constructor
  · exact fun h => ⟨h.stem, hparent.mp h.parent, h.index⟩
  · rintro ⟨hstem, hdirs, hindex⟩
    exact ⟨hstem, hparent.mpr hdirs, hindex⟩

/-- **Two pages have one folder** in two cases, which are told by their parents and stems. -/
theorem folder_eq_iff (hp : p = content.below (dirs ++ [name]))
    (hq : q = content.below (dirs' ++ [name']))
    (hpdot : p.stem ≠ ".".toList) (hqdot : q.stem ≠ ".".toList) :
    folder content p = folder content q ↔
      SharesStem p q ∨ IsIndexOf p q ∨ IsIndexOf q p := by
  rw [sharesStem_iff hp hq, isIndexOf_iff hp hq, isIndexOf_iff hq hp]
  rcases folder_cases hp hpdot with ⟨hpindex, hpfolder⟩ | ⟨hpindex, hpfolder⟩ <;>
    rcases folder_cases hq hqdot with ⟨hqindex, hqfolder⟩ | ⟨hqindex, hqfolder⟩ <;>
    rw [hpfolder, hqfolder] <;> generalize "index".toList = index at hpindex hqindex ⊢
  · simp [hpindex, hqindex]
  · simp [hpindex, hqindex, Ne.symm hqindex]
  · simp [hpindex, hqindex, eq_comm]
  · simp [hpindex, hqindex]

/-- The name of a page is its stem and its suffix. -/
theorem eq_below_stem_suffix (hp : p = content.below (dirs ++ [name])) :
    p = content.below (dirs ++ [p.stem ++ p.suffix]) := by
  have hname : p.stem ++ p.suffix = name := by
    rw [Path.stem, Path.suffix, Path.splitSuffix_append, hp, Path.name, Path.below,
      ← List.append_assoc, List.getLastD_concat]
  rw [hname, ← hp]

theorem isMarkdown_of_mem_pages (h : p ∈ pages d content) : isMarkdown p := by
  have hpage := (mem_pages.mp h).2
  simp only [isPage, Bool.and_eq_true] at hpage
  exact hpage.1

/-- **Which pages have one file.** Of two pages below the content directory, neither with a single
dot for its stem, both have one file exactly if they share folder and stem, or one of them is the
index page of the folder that the other one has for its name without suffix, and is not called
`index` itself. Two pages that share folder and stem have suffixes that differ in the case of their
letters only. -/
theorem target_eq_iff (hd : d.IsTree) (hp : p ∈ pages d content) (hq : q ∈ pages d content)
    (hne : p ≠ q) (hpdot : p.stem ≠ ".".toList) (hqdot : q.stem ≠ ".".toList) (output : Path) :
    (∃ t u, target content output p = .ok t ∧ target content output q = .ok u ∧
        (t = u ↔ SharesStem p q ∨ IsIndexOf p q ∨ IsIndexOf q p)) ∧
      (SharesStem p q →
        p.suffix ≠ q.suffix ∧ Text.lower p.suffix = Text.lower q.suffix) := by
  obtain ⟨dirs, name, hpbelow, -⟩ := exists_of_mem_pages hd hp
  obtain ⟨dirs', name', hqbelow, -⟩ := exists_of_mem_pages hd hq
  refine ⟨⟨_, _, target_of_mem_pages hd hp output, target_of_mem_pages hd hq output, ?_⟩, ?_⟩
  · rw [file, file, Path.below_inj, List.append_left_inj]
    exact folder_eq_iff hpbelow hqbelow hpdot hqdot
  · intro hshares
    obtain ⟨hdirs, hstem⟩ := (sharesStem_iff hpbelow hqbelow).mp hshares
    have hlower : ∀ {page : Path}, page ∈ pages d content →
        Text.lower page.suffix = ".md".toList :=
      fun hpage => of_decide_eq_true (isMarkdown_of_mem_pages hpage)
    refine ⟨fun hsuffix => hne ?_, (hlower hp).trans (hlower hq).symm⟩
    rw [eq_below_stem_suffix hpbelow, eq_below_stem_suffix hqbelow, hdirs, hstem, hsuffix]

/-- A page whose stem has a dot in it, and the index of a directory of this name. -/
theorem target_eq_of_dotted_stem :
    let d : Disk := ⟨[], [(["content"], .directory), (["content", "x.y.md"], .file []),
      (["content", "x.y"], .directory), (["content", "x.y", "index.MD"], .file [])]⟩
    d.IsTree ∧ ("content/x.y.md" : Path) ∈ pages d "content" ∧
      ("content/x.y/index.MD" : Path) ∈ pages d "content" ∧
      ∃ t, target "content" "out" "content/x.y.md" = .ok t ∧
        target "content" "out" "content/x.y/index.MD" = .ok t := by
  intro d
  have hd : d.IsTree := by decide
  have hp : ("content/x.y.md" : Path) ∈ pages d "content" := by decide
  have hq : ("content/x.y/index.MD" : Path) ∈ pages d "content" := by decide
  obtain ⟨⟨t, u, ht, hu, hsame⟩, -⟩ :=
    target_eq_iff hd hp hq (by decide) (by decide) (by decide) "out"
  obtain rfl : t = u := hsame.mpr (.inr (.inr ⟨by decide, by decide, by decide⟩))
  exact ⟨hd, hp, hq, t, ht, hu⟩

end Pageloom.Site
