import Pageloom.Proofs.Site.Refusal
import Pageloom.Proofs.Site.Settings

/-!
# Settings of a wrong type

Only two settings are checked when a configuration is read, so the others can hold values of any
kind. A base address of any kind counts as its text. The names of the two directories are used as
parts of paths, and a value that is no text breaks the build off there, with an error about types.

That is the only way to this error. The output directory in the settings is of no matter if there
is no content, or if another output directory is asked for; and nothing has changed yet on the disk.

## Main definitions

* `Site.Mistyped`: the values that break a build off.
* `Site.Fault.IsTypeError`: the error about types.

## Main results

* `Site.mistyped_of_prepare`, `Site.not_isTypeError_of_run`: the first step, and those after it.
* `Site.layout?_put_baseUrl`: the base address counts as its text.
* `Site.build_typeError_iff`: when a build ends with an error about types.
-/

namespace Pageloom.Site

open Disk

variable {d after : Disk} {root content output : Path} {asked : Option Path} {c : Config}
  {job : Job} {clean : Bool} {f : Fault} {v : Value} {name other : Text}

/-- A setting with a value that is no text. -/
def IsNoText (c : Config) (name : Text) (v : Value) : Prop :=
  Config.setting name c = some v ∧ ∀ t, v ≠ .text t

/-- A value that a build uses as a path although it is no text: that of the content directory, or
that of the output directory if there is content and no other output directory is asked for. -/
inductive Mistyped (d : Disk) (root : Path) (c : Config) (asked : Option Path) : Value → Prop where
  | content {v : Value} (h : IsNoText c "content_dir" v) : Mistyped d root c asked v
  | output {content : Path} {e : Entry} {v : Value}
      (hcontent : settingPath root c "content_dir" "content" = .ok content)
      (hstatus : d.status content = .ok e) (hasked : asked = none)
      (h : IsNoText c "output_dir" v) : Mistyped d root c asked v

/-- The error is about types. -/
def Fault.IsTypeError (f : Fault) : Prop := f.kind = "TypeError"

theorem not_isTypeError_disk (f : Disk.Fault) : ¬ (Fault.disk f).IsTypeError := by
  have hkind (cause : Cause) : (Disk.Fault.mk cause ⟨0, []⟩).kind ≠ "TypeError".toList := by
    cases cause <;> decide
  exact hkind f.cause

/-- Faults of two kinds are the only ones that can be about types. -/
theorem eq_of_isTypeError (h : f.IsTypeError) : (∃ v, f = .notPath v) ∨ ∃ g, f = .config g := by
  cases f with
  | config g => exact .inr ⟨g, rfl⟩
  | notPath v => exact .inl ⟨v, rfl⟩
  | disk g => exact absurd h (not_isTypeError_disk g)
  | noContent =>
    exact absurd (show "FileNotFoundError".toList = "TypeError".toList from h) (by decide)
  | page => exact absurd (show "BuildError".toList = "TypeError".toList from h) (by decide)
  | notBelow | setting =>
    exact absurd (show "ValueError".toList = "TypeError".toList from h) (by decide)

theorem not_isTypeError_absence (content : Path) (cause : Cause) :
    ¬ (absence content cause).IsTypeError := by
  intro h
  rw [absence] at h
  split at h
  · exact not_isTypeError_disk _ h
  · obtain ⟨v, hv⟩ | ⟨g, hg⟩ := eq_of_isTypeError h
    · cases hv
    · cases hg

/-! ### Paths in the settings -/

theorem settingPath_eq_error_iff {default : Text} : settingPath root c name default = .error f ↔
    ∃ v, IsNoText c name v ∧ f = .notPath v := by
  rw [settingPath]
  cases hv : Config.setting name c with
  | none => simp [IsNoText, hv]
  | some v => cases v <;> simp [IsNoText, hv, eq_comm]

theorem outputPath_eq_error_iff : outputPath root c asked = .error f ↔
    asked = none ∧ ∃ v, IsNoText c "output_dir" v ∧ f = .notPath v := by
  cases asked with
  | none => rw [outputPath, settingPath_eq_error_iff, and_iff_right rfl]
  | some output => simp [outputPath]

/-! ### The first step -/

theorem prepare_of_mistyped (hload : Config.load d root = .ok c) (h : Mistyped d root c asked v) :
    prepare d root asked = .error (.notPath v) := by
  cases h with
  | content h =>
    rw [prepare, bind_of_ok (mapError_eq_ok.mpr hload), settingPath_eq_error_iff.mpr ⟨v, h, rfl⟩]
    rfl
  | output hcontent hstatus hasked h =>
    rw [prepare_of_present hload hcontent hstatus,
      outputPath_eq_error_iff.mpr ⟨hasked, v, h, rfl⟩]
    rfl

theorem mistyped_of_prepare (hload : Config.load d root = .ok c)
    (h : prepare d root asked = .error f) (hf : f.IsTypeError) :
    ∃ v, Mistyped d root c asked v ∧ f = .notPath v := by
  cases hcontent : settingPath root c "content_dir" "content" with
  | error g =>
    rw [prepare, bind_of_ok (mapError_eq_ok.mpr hload), hcontent] at h
    cases h
    obtain ⟨v, hv, rfl⟩ := settingPath_eq_error_iff.mp hcontent
    exact ⟨v, .content hv, rfl⟩
  | ok content =>
    cases hstatus : d.status content with
    | error cause =>
      cases h.symm.trans (prepare_of_absent hload hcontent hstatus)
      exact absurd hf (not_isTypeError_absence content cause)
    | ok e =>
      rw [prepare_of_present hload hcontent hstatus] at h
      cases houtput : outputPath root c asked with
      | error g =>
        rw [houtput] at h
        cases h
        obtain ⟨hasked, v, hv, rfl⟩ := outputPath_eq_error_iff.mp houtput
        exact ⟨v, .output hcontent hstatus hasked hv, rfl⟩
      | ok output =>
        rw [houtput] at h
        cases hlisting : listing d content with
        | error g =>
          rw [hlisting] at h
          cases h
          exact absurd hf (not_isTypeError_disk g)
        | ok pages =>
          simp only [hlisting, bind, Except.bind, Except.mapError] at h
          obtain ⟨v, rfl⟩ | ⟨g, rfl⟩ := eq_of_isTypeError hf <;> split at h <;> cases h

/-! ### The steps after it -/

theorem not_isTypeError_of_run (h : run clean job d = (.error f, after)) : ¬ f.IsTypeError := by
  intro hf
  have hrun := runsTo_run clean job d
  rw [h] at hrun
  obtain ⟨v, rfl⟩ | ⟨g, rfl⟩ := eq_of_isTypeError hf <;> cases hrun

/-! ### The base address -/

theorem setting_put_self (name : Text) (v : Value) (c : Config) :
    Config.setting name (Value.put (.text name) v c) = some v := by
  rw [Config.setting, Value.get?_put_text, if_pos (Value.sameKey_text_right.mpr rfl)]

theorem setting_put_of_ne (h : name ≠ other) (v : Value) (c : Config) :
    Config.setting name (Value.put (.text other) v c) = Config.setting name c := by
  rw [Config.setting, Value.get?_put_text, if_neg, Config.setting]
  rw [Value.sameKey_text_right]
  simpa using h.symm

/-- The text of a base address stands for the same base address. -/
theorem baseUrl_put (c : Config) :
    Config.baseUrl (Value.put "base_url" (.text (Config.baseUrl c)) c) = Config.baseUrl c := by
  rw [Config.baseUrl, setting_put_self]
  cases hb : Config.baseUrl c <;> simp [Value.isTrue, Value.toText]

/-- **A base address counts as its text**, whatever kind of value it is. -/
theorem layout?_put_baseUrl (h : Config.isWritable c) :
    Config.layout? (Value.put "base_url" (.text (Config.baseUrl c)) c) = Config.layout? c := by
  have hkept {name : Text} (hname : name ≠ "base_url".toList) :=
    setting_put_of_ne hname (.text (Config.baseUrl c)) c
  have hwritable : Config.isWritable (Value.put "base_url" (.text (Config.baseUrl c)) c) := by
    rw [Config.isWritable, Bool.and_eq_true] at h ⊢
    rw [setting_put_self, hkept (by decide)]
    exact ⟨Bool.or_true _, h.2⟩
  have hlayout : Config.layout (Value.put "base_url" (.text (Config.baseUrl c)) c) =
      Config.layout c := by
    rw [Config.layout, Config.filters, Config.helpers, baseUrl_put, hkept (by decide),
      hkept (by decide), hkept (by decide)]
    rfl
  rw [Config.layout?, Config.layout?, if_pos h, if_pos hwritable, hlayout]

/-! ### The error -/

/-- **A build ends with an error about types** exactly if a value that is no text is used as a path,
and changes nothing then. -/
theorem build_typeError_iff (hload : Config.load d root = .ok c) (asked : Option Path)
    (clean : Bool) :
    (∀ f after, build root asked clean d = (.error f, after) ∧ f.IsTypeError ↔
      ∃ v, Mistyped d root c asked v ∧ f = .notPath v ∧ after = d) ∧
    (Config.isWritable c →
      Config.layout? (Value.put "base_url" (.text (Config.baseUrl c)) c) = Config.layout? c) := by
  refine ⟨fun f after => ⟨?_, ?_⟩, layout?_put_baseUrl⟩
  · rintro ⟨h, hf⟩
    cases hprepare : prepare d root asked with
    | error g =>
      rw [build_of_prepare_error hprepare] at h
      cases h
      obtain ⟨v, hv, rfl⟩ := mistyped_of_prepare hload hprepare hf
      exact ⟨v, hv, rfl, rfl⟩
    | ok job =>
      rw [build_of_prepare_ok hprepare] at h
      exact absurd hf (not_isTypeError_of_run h)
  · rintro ⟨v, hv, rfl, rfl⟩
    exact ⟨build_of_prepare_error (prepare_of_mistyped hload hv) clean, rfl⟩

/-- A content directory whose name is a list. -/
theorem build_typeError_of_list :
    let d : Disk := ⟨[], [(["project"], .directory),
      (["project", "folio.yaml"], .file (Utf8.encode "content_dir: []\n".toList))]⟩
    ∃ c, Config.load d "project" = .ok c ∧ Config.setting "content_dir" c = some (.list []) ∧
      build "project" none true d = (.error (.notPath (.list [])), d) ∧
      (Fault.notPath (.list [])).IsTypeError := by
  intro d
  have hload : Config.load d "project" = .ok (Config.merged [("content_dir", .list [])]) :=
    Config.load_eq_merged (t := "content_dir: []\n".toList) (by decide +kernel) (by rfl)
      (Config.not_rejected_iff.mpr ⟨nofun, nofun⟩)
  have hsetting : Config.setting "content_dir" (Config.merged [("content_dir", .list [])]) =
      some (.list []) := by rfl
  obtain ⟨hiff, -⟩ := build_typeError_iff hload none true
  obtain ⟨hbuild, hkind⟩ := (hiff _ _).mpr ⟨_, .content ⟨hsetting, nofun⟩, rfl, rfl⟩
  exact ⟨_, hload, hsetting, hbuild, hkind⟩

end Pageloom.Site
