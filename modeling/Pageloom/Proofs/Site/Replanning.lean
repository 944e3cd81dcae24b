import Pageloom.Proofs.Site.Configuration
import Pageloom.Proofs.Site.Leaving
import Pageloom.Proofs.Site.Listing
import Pageloom.Proofs.Site.Sources

/-!
# The plan after a build

A build that is prepared again, after a clean build that succeeded, has the same plan. For that the
configuration has to be read again as it was, and the same pages have to be found.

Neither follows from the files alone. A configuration file that is not there must not be made as a
directory on the way to the output, and no directory may take the name of a page.

## Main results

* `Site.Leaves.load_eq`: the configuration.
* `Site.Leaves.pages_eq`: the pages.
* `Site.Leaves.prepare_eq`: the plan.
-/

namespace Pageloom.Site

open Disk Place

variable {d opened after : Disk} {root content p page : Path} {asked : Option Path}
  {job : Job} {c : Config} {place q : Place} {e : Entry} {bytes : List UInt8} {htmls : List Text}

/-! ### The configuration again -/

theorem filePath_eq (root : Path) : Config.filePath root = root.below ["folio.yaml".toList] := by
  have hname : Path.parse Config.fileName = ⟨0, ["folio.yaml".toList]⟩ := by decide
  rw [Config.filePath, hname, Path.append, if_pos rfl]
  rfl

/-- A configuration is read from its file, unless there is none. -/
theorem cases_of_load (h : Config.load d root = .ok c) :
    (d.exists? (Config.filePath root) = .ok false ∧ c = Config.defaults) ∨
      ∃ bytes, d.read (Config.filePath root) = .ok bytes := by
  rw [Config.load, ← Config.filePath] at h
  cases hexists : d.exists? (Config.filePath root) with
  | error f => simp [hexists] at h
  | ok found =>
    cases found with
    | false =>
      simp only [hexists] at h
      exact .inl ⟨rfl, (Except.ok.inj h).symm⟩
    | true =>
      cases hread : d.read (Config.filePath root) with
      | error f => simp [hexists, hread] at h
      | ok bytes => exact .inr ⟨bytes, rfl⟩

theorem load_of_absent (h : d.exists? (Config.filePath root) = .ok false) :
    Config.load d root = .ok Config.defaults := by
  rw [Config.load, ← Config.filePath, h]

/-- Where one name can be followed, another one can that does not make the path too long. -/
theorem locate_sibling {x y : Text} (h : d.locate (p.below [x]) = .ok q) (hy : IsUsable y)
    (hfree : d.exists? (p.below [y]) = .ok false) :
    d.locate (p.below [y]) = .ok (d.spot (p.below [y])) := by
  have husable := (locate_eq_ok h).2.2
  have hparts : ∀ part ∈ (p.below [y]).components, IsUsable part := fun part hpart =>
    (List.mem_append.mp hpart).elim (fun hpart => husable.parts part (List.mem_append_left _ hpart))
      fun hpart => List.mem_singleton.mp hpart ▸ hy
  have husable' : IsUsablePath (p.below [y]) := ⟨hparts, isLongPath_of_exists? hparts hfree⟩
  rw [locate_eq_walk husable, Path.below, walk_append] at h
  rw [locate_eq_walk husable', spot, Path.below, walk_append, follow_append]
  cases hwalk : d.walk (d.start p.slashes) p.components with
  | error cause => simp [hwalk, Except.bind] at h
  | ok r =>
    obtain rfl := (walk_eq_ok hwalk).1
    simp only [hwalk, Except.bind] at h ⊢
    set r := follow (d.start p.slashes) p.components
    cases hentry : d.entry? r with
    | none => simp [walk, hentry] at h
    | some e =>
      cases e with
      | file bytes => simp [walk, hentry] at h
      | directory =>
        rw [walk_cons_of_directory hentry hy.short, walk]
        rfl

/-- Without a configuration file there is none because nothing stands there: the content directory,
which is beside it then, can be found. -/
theorem IsPlanned.free_of_absent (h : IsPlanned d root asked c content job)
    (habsent : d.exists? (Config.filePath root) = .ok false) :
    d.locate (Config.filePath root) = .ok (d.spot (Config.filePath root)) ∧
      d.entry? (d.spot (Config.filePath root)) = none := by
  have hcontent : content = root.below ["content".toList] := by
    have hdefault : settingPath root Config.defaults "content_dir" "content" =
        .ok (root.below ["content".toList]) := rfl
    have hload := h.config
    rw [load_of_absent habsent] at hload
    cases hload
    exact Except.ok.inj (h.directory.symm.trans hdefault)
  obtain ⟨e, he⟩ := exists?_eq_true_iff.mp h.present
  have hlocate := (status_eq_ok_iff.mp he).1
  rw [hcontent] at hlocate
  rw [filePath_eq] at habsent ⊢
  obtain ⟨cause, hstatus⟩ := exists_status_of_not_exists habsent
  have hfile := locate_sibling hlocate (by decide) habsent
  exact ⟨hfile, entry?_eq_none_of_status hfile hstatus⟩

section

variable (h : Leaves d job htmls opened after) (hd : d.IsTree)
  (hjob : prepare d root asked = .ok job)

include h hd hjob

/-- A build does not make anything in the place of a configuration file. -/
theorem Leaves.free_config (hopened : opened.IsTree)
    (hconfig : IsApart d job.output (Config.filePath root))
    (hway : d.spot (Config.filePath root) ∉ d.trail job.output)
    (hlocate : d.locate (Config.filePath root) = .ok (d.spot (Config.filePath root)))
    (hfree : d.entry? (d.spot (Config.filePath root)) = none) :
    after.entry? (d.spot (Config.filePath root)) = none := by
  have hopen : opened.entry? (d.spot (Config.filePath root)) = none := by
    rw [h.cleaned.others _ hway fun _ => hconfig.outside, hfree]
  have hplaced : placed opened (d.spot (Config.filePath root)) (job.targets.zip htmls) = none := by
    refine h.placed_eq_none_iff.mpr fun t ht =>
      ⟨spot_ne_of_locate_config hd hjob hlocate ht, fun hmem => ?_⟩
    obtain ⟨c, content, hplanned⟩ := prepare_eq_ok hjob
    have htargets := plan_eq_ok hd (hplanned.sources ▸ hplanned.targets)
    obtain ⟨page, hpage, rfl⟩ := List.mem_map.mp (htargets ▸ ht)
    rcases (mem_trail_parent_file_iff _ _ _ _).mp hmem with hmem | hmem
    · exact hway hmem
    · rcases mem_trail_folder hd hpage hmem with heq | ⟨rest, heq⟩
      · -- The directory above the output directory is there.
        have habove := hopened.directory_above
          (h.cleaned.directory _ (spot_mem_trail d job.output))
        rw [← heq, hopen] at habove
        cases habove
      · exact hconfig.outside ⟨rest, heq.symm⟩
  rw [h.entry, hplaced, hopen]
  rfl

/-- **The configuration is read again** as it was read before. -/
theorem Leaves.load_eq (hopened : opened.IsTree)
    (hconfig : IsApart d job.output (Config.filePath root))
    (hway : d.spot (Config.filePath root) ∉ d.trail job.output) :
    Config.load after root = Config.load d root := by
  obtain ⟨c, content, hplanned⟩ := prepare_eq_ok hjob
  rcases cases_of_load hplanned.config with ⟨habsent, -⟩ | ⟨bytes, hread⟩
  · obtain ⟨hlocate, hfree⟩ := hplanned.free_of_absent habsent
    have hfree' := h.free_config hd hjob hopened hconfig hway hlocate hfree
    have habsent' : after.exists? (Config.filePath root) = .ok false := by
      rw [exists?, status, h.locate_of_isApart hconfig hlocate]
      simp only [hfree']
    rw [load_of_absent habsent', load_of_absent habsent]
  · obtain ⟨hlocate, hentry⟩ := read_eq_ok_iff.mp hread
    have hkept := h.cleaned.kept (fun _ => hconfig.outside) hentry
    have hread' : after.read (Config.filePath root) = .ok bytes := by
      refine read_eq_ok_iff.mpr ?_
      rw [spot_of_here h.here]
      refine ⟨h.locate_of_isApart hconfig hlocate, (h.file_iff fun t ht => ?_).mpr hkept⟩
      exact spot_ne_of_locate_config hd hjob hlocate ht
    rw [Config.load_of_read hread', Config.load_of_read hread]

end

/-! ### The pages again -/

/-- No page is in the place of a file that a page is written to. -/
theorem ne_index_of_isMarkdown {dirs : List Text} {name : Text}
    (h : isMarkdown (content.below (dirs ++ [name]))) : name ≠ "index.html".toList := by
  rintro rfl
  rw [isMarkdown, Path.suffix, Path.name, Path.below, ← List.append_assoc,
    List.getLastD_concat] at h
  revert h
  decide

theorem IsPlanned.spot_ne_of_isMarkdown (h : IsPlanned d root asked c content job) (hd : d.IsTree)
    {rest : List Text} (hne : rest ≠ []) (hpage : isMarkdown (content.below rest)) (place : Place) :
    ∀ t ∈ job.targets, d.spot t ≠ place ++ rest := by
  intro t ht heq
  obtain ⟨folder, hfolder⟩ := spot_of_mem_targets hd (prepare_of_isPlanned h) ht
  rcases List.eq_nil_or_concat rest with rfl | ⟨dirs, name, rfl⟩
  · exact hne rfl
  · rw [List.concat_eq_append] at hpage heq
    rw [hfolder, ← List.append_assoc] at heq
    exact ne_index_of_isMarkdown hpage (List.append_singleton_inj.mp heq).2.symm

theorem IsPlanned.locate (h : IsPlanned d root asked c content job) :
    ∃ e, d.locate content = .ok (d.spot content) ∧ d.entry? (d.spot content) = some e := by
  obtain ⟨e, he⟩ := exists?_eq_true_iff.mp h.present
  exact ⟨e, status_eq_ok_iff.mp he⟩

/-- A page that was read when the output directory was open has its file there, and no page is
written in its place. -/
theorem IsPlanned.file_of_read (h : IsPlanned d root asked c content job) (hd : d.IsTree)
    (hhere : opened.here = d.here) (hpage : page ∈ pages d content)
    (hread : opened.read page = .ok bytes) :
    ∃ rest, rest ≠ [] ∧ page = content.below rest ∧ isMarkdown page ∧ ¬ isInternal ⟨0, rest⟩ ∧
      opened.entry? (d.spot content ++ rest) = some (.file bytes) ∧
      ∀ t ∈ job.targets, d.spot t ≠ d.spot content ++ rest := by
  obtain ⟨-, hlocate, -⟩ := h.locate
  obtain ⟨rest, bytes', hne, rfl, hfile, hmarkdown, hinternal⟩ :=
    (mem_pages_iff hd hlocate).mp hpage
  refine ⟨rest, hne, rfl, hmarkdown, hinternal, ?_, h.spot_ne_of_isMarkdown hd hne hmarkdown _⟩
  rw [← hd.spot_below hlocate hfile, ← spot_of_here hhere]
  exact (read_eq_ok_iff.mp hread).2

/-- **The same pages are found again**, if they could be read. -/
theorem Leaves.pages_eq (h : Leaves d job htmls opened after) (hd : d.IsTree)
    (hafter : after.IsTree) (hplanned : IsPlanned d root asked c content job)
    (hcontent : IsApart d job.output content)
    (hread : ∀ page ∈ pages d content, ∃ bytes, opened.read page = .ok bytes) :
    pages after content = pages d content := by
  obtain ⟨-, hlocate, -⟩ := hplanned.locate
  have hlocate' := h.locate_of_isApart hcontent hlocate
  refine pages_congr hd hafter fun page => ?_
  rw [mem_pages_iff hafter hlocate']
  constructor
  · rintro ⟨rest, bytes, hne, rfl, hfile, hpage⟩
    have hnot := hplanned.spot_ne_of_isMarkdown hd hne hpage.1 (d.spot content)
    obtain ⟨hfound, -, -⟩ := h.cleaned.file_of_file ((h.file_iff hnot).mp hfile)
    exact (mem_pages_iff hd hlocate).mpr ⟨rest, bytes, hne, rfl, hfound, hpage⟩
  · intro hmem
    obtain ⟨bytes, hbytes⟩ := hread page hmem
    obtain ⟨rest, hne, rfl, hmarkdown, hinternal, hfile, hnot⟩ :=
      hplanned.file_of_read hd h.cleaned.here hmem hbytes
    exact ⟨rest, bytes, hne, rfl, (h.file_iff hnot).mpr hfile, hmarkdown, hinternal⟩

/-! ### The list again -/

/-- A text that begins with one of two texts, none of which begins with the other, does not begin
with the other one. -/
theorem not_prefix_of_prefix {o place : Place} (hplace : ¬ place <+: o) (ho : ¬ o <+: place)
    (hq : o <+: q) : ¬ place <+: q := fun h =>
  (List.prefix_or_prefix_of_prefix h hq).elim hplace ho

/-- Nothing that a build puts on the disk is below a content directory that is neither in the output
directory nor on the way to it. -/
theorem Leaves.exists_entry_of_after (h : Leaves d job htmls opened after) (hd : d.IsTree)
    (hplanned : IsPlanned d root asked c content job) (hcontent : IsApart d job.output content)
    (houtput : IsApart d content job.output) (hq : isBelow (d.spot content) q)
    (he : after.entry? q = some e) : d.entry? q = some e := by
  obtain ⟨hinside, -⟩ := isBelow_iff_isPrefix.mp hq
  have htrail : q ∉ d.trail job.output := fun hmem => houtput.way q hmem hq
  have hplaced : placed opened q (job.targets.zip htmls) = none := by
    refine h.placed_eq_none_iff.mpr fun t ht => ?_
    obtain ⟨hfiles, -⟩ := hplanned.targets_eq hd
    obtain ⟨page, hpage, rfl⟩ := List.mem_map.mp (hfiles ▸ ht)
    have hapart (r : Place) (hr : r ∈ Place.trail (d.spot job.output) (folder content page)) :
        ¬ d.spot content <+: r := by
      rcases mem_trail_folder hd hpage hr with rfl | ⟨rest, rfl⟩
      · exact fun hup => houtput.outside (hup.trans (List.dropLast_prefix _))
      · exact not_prefix_of_prefix houtput.outside hcontent.outside (List.prefix_append _ rest)
    refine ⟨?_, fun hmem => ?_⟩
    · rintro rfl
      have hspot : d.spot (file content job.output page) =
          follow (d.spot job.output) (folder content page) ++ ["index.html".toList] := by
        rw [spot, file, Path.below, follow_append, follow_append, follow_singleton,
          step_of_ne index_ne_up]
        rfl
      rw [hspot] at hq hinside
      rcases List.prefix_concat_iff.mp hinside with heq | hinside
      · exact (isBelow_iff_isPrefix.mp hq).2 heq.symm
      · exact hapart _ (follow_mem_trail _ _) hinside
    · rcases (mem_trail_parent_file_iff _ _ _ _).mp hmem with hmem | hmem
      · exact htrail hmem
      · exact hapart q hmem hinside
  rw [h.entry, hplaced, Option.none_or] at he
  rw [← h.cleaned.others q htrail fun hne hbelow => ?_, he]
  cases (h.cleaned.gone hne q htrail hbelow).symm.trans he

/-- So nothing has become too long to be listed there. -/
theorem Leaves.longPath?_eq_none (h : Leaves d job htmls opened after) (hd : d.IsTree)
    (hafter : after.IsTree) (hplanned : IsPlanned d root asked c content job)
    (hcontent : IsApart d job.output content) (houtput : IsApart d content job.output) :
    longPath? after content = none := by
  refine longPath?_eq_none_iff.mpr fun p e hmem => ?_
  obtain ⟨place, rest, hplace, -, hne, hentry, rfl⟩ := mem_under_iff.mp hmem
  obtain ⟨-, hlocate, -⟩ := hplanned.locate
  obtain rfl := Except.ok.inj ((h.locate_of_isApart hcontent hlocate).symm.trans hplace)
  have hfree := List.append_ne_nil_of_right_ne_nil (d.spot content) hne
  have he := h.exists_entry_of_after hd hplanned hcontent houtput
    (isBelow_iff.mpr ⟨rest, hne, rfl⟩) (hafter.entry?_eq_of_mem hentry hfree)
  exact longPath?_eq_none_iff.mp hplanned.listed _ e (mem_under_iff.mpr
    ⟨_, rest, hlocate, hd.directory_of_below hne he, hne, mem_entries_of_entry he hfree, rfl⟩)

/-- **The same job is planned again**, if nothing in the content directory has a path that is too
long to be listed. -/
theorem Leaves.prepare_eq (h : Leaves d job htmls opened after) (hd : d.IsTree)
    (hopened : opened.IsTree) (hafter : after.IsTree)
    (hplanned : IsPlanned d root asked c content job) (hcontent : IsApart d job.output content)
    (hconfig : IsApart d job.output (Config.filePath root))
    (hway : d.spot (Config.filePath root) ∉ d.trail job.output)
    (hread : ∀ page ∈ job.pages, ∃ bytes, opened.read page = .ok bytes)
    (hlisted : longPath? after content = none) :
    prepare after root asked = .ok job := by
  have hjob := prepare_of_isPlanned hplanned
  have hpages := h.pages_eq hd hafter hplanned hcontent (hplanned.sources ▸ hread)
  obtain ⟨e, hlocate, he⟩ := hplanned.locate
  have hpresent : after.exists? content = .ok true := by
    obtain ⟨e', he'⟩ := h.exists_entry (h.cleaned.kept (fun _ => hcontent.outside) he)
    refine exists?_eq_true_iff.mpr ⟨e', status_eq_ok_iff.mpr ?_⟩
    rw [spot_of_here h.here]
    exact ⟨h.locate_of_isApart hcontent hlocate, he'⟩
  exact prepare_of_isPlanned {
    config := (h.load_eq hd hjob hopened hconfig hway).trans hplanned.config
    directory := hplanned.directory
    present := hpresent
    listed := hlisted
    output := hplanned.output
    layout := hplanned.layout
    sources := hplanned.sources.trans hpages.symm
    targets := hplanned.targets }

end Pageloom.Site
