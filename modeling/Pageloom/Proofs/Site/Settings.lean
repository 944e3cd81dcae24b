import Pageloom.Proofs.Site.Configuration

/-!
# The settings of a configuration file

A file that holds a mapping of settings is refused for its number of workers, or else for the site's
data. Any other one gives the default settings overridden by those of the file, the default names
first and in their order; where the file has null for the number of workers, the default number
stays.

Whatever counts as not set passes for the site's data. So the settings of a project have a positive
number of workers, while its data need not be null or a mapping: they may be false, zero, or an
empty text or list.

## Main definitions

* `Config.IsWorkers`, `Config.IsData`: what the two settings that are checked may be.
* `Config.Rejected`: why the settings of a file are refused.
* `Config.merged`: the settings of a project whose file is not refused.

## Main results

* `Config.ofValue_of_rejected`, `Config.ofValue_eq_merged`: the outcome for the settings of a file.
* `Config.load_of_settings`: the outcome for a file.
-/

namespace Pageloom.Config

open Value

variable {d : Disk} {root : Path} {t : Text} {v : Value} {m : List (Value × Value)}
  {reason : Reason}

/-! ### Settings that are checked -/

/-- The value may be a number of workers: it is null or a positive integer. -/
def IsWorkers (v : Value) : Prop := v = .null ∨ ∃ n, 1 ≤ n ∧ v = .int n

/-- The value may be the site's data: it is a map, or it counts as not set. -/
def IsData (v : Value) : Prop := (∃ es, v = .map es) ∨ ¬ v.isTrue

/-- What is wrong with the settings of a file. The site's data are looked at only if there is
nothing wrong with the number of workers. -/
inductive Rejected (m : List (Value × Value)) : Reason → Prop where
  | workers {v : Value} (h : setting "workers" m = some v) (hv : ¬ IsWorkers v) :
      Rejected m (.badWorkers v)
  | data {v : Value} (hworkers : ∀ w, setting "workers" m = some w → IsWorkers w)
      (h : setting "data" m = some v) (hv : ¬ IsData v) : Rejected m .dataNotMap

/-- The value of a setting in a file, if it counts: null does not as a number of workers. -/
def chosen (m : List (Value × Value)) (name : Value) : Option Value :=
  match get? name m with
  | some .null => if sameKey name "workers" then none else some .null
  | found => found

/-- The default settings, overridden by those of a file, and the others of the file behind them. -/
def merged (m : List (Value × Value)) : Config :=
  defaults.map (fun e => (e.1, (chosen m e.1).getD e.2)) ++
    m.filter fun e => (get? e.1 defaults).isNone

theorem isData_iff : isData v ↔ IsData v := by
  cases v <;> simp [isData, IsData]

theorem workers?_eq_none_iff : workers? v = none ↔ ¬ IsWorkers v := by
  cases v <;> simp [workers?, IsWorkers]

theorem exists_int_of_workers? {n : Value} (h : workers? v = some n) : ∃ k, 1 ≤ k ∧ n = .int k := by
  cases v with
  | null => exact ⟨4, by decide, (Option.some.inj h).symm⟩
  | int k =>
    obtain ⟨hk, hn⟩ := Option.ite_none_right_eq_some.mp h
    exact ⟨k, hk, (Option.some.inj hn).symm⟩
  | _ => cases h

theorem hasNames_defaults : HasNames defaults := by
  simp [HasNames, keys, defaults]

/-! ### The outcome for the settings of a file -/

theorem setting_putAll {name : Text} (hm : HasDistinctKeys m) (h : setting name defaults = some v) :
    setting name (putAll defaults m) = some ((setting name m).getD v) := by
  rw [setting] at h
  rw [setting, get?_putAll_text hm, h, setting]
  cases get? (.text name) m <;> rfl

theorem askedWorkers_eq (hm : HasDistinctKeys m) :
    askedWorkers m = (setting "workers" m).getD defaultWorkers := by
  rw [askedWorkers, setting_putAll hm (v := defaultWorkers) rfl]
  rfl

theorem chosen_of_ne {name : Value} (h : ¬ sameKey name "workers") :
    chosen m name = get? name m := by
  rw [chosen]
  split
  · next hnull => rw [if_neg h, hnull]
  · rfl

theorem getD_chosen_workers {n : Value}
    (h : workers? ((setting "workers" m).getD defaultWorkers) = some n) :
    (chosen m "workers").getD defaultWorkers = n := by
  rw [setting] at h
  rw [chosen]
  cases hw : get? "workers" m with
  | none =>
    rw [hw] at h
    exact Option.some.inj h
  | some w =>
    rw [hw] at h
    cases w with
    | null => exact Option.some.inj h
    | int k =>
      obtain ⟨-, hk⟩ := Option.ite_none_right_eq_some.mp h
      exact Option.some.inj hk
    | _ => cases h

/-- The number of workers keeps its place among the settings. -/
theorem put_workers (hm : HasDistinctKeys m) {n : Value} (h : workers? (askedWorkers m) = some n) :
    put "workers" n (putAll defaults m) = merged m := by
  rw [askedWorkers_eq hm] at h
  rw [putAll_eq hasNames_defaults hm, merged, ← getD_chosen_workers h]
  simp [overridden, defaults, put, sameKey_text_right, chosen_of_ne]

/-- The outcome if the number of workers is one. -/
theorem ofValue_of_workers (hm : HasDistinctKeys m) {n : Value}
    (h : workers? (askedWorkers m) = some n) :
    ofValue (.map m) =
      if isData ((setting "data" m).getD (.map [])) then .ok (merged m)
      else .error .dataNotMap := by
  have hdata : setting "data" (putAll defaults m) = some ((setting "data" m).getD (.map [])) :=
    setting_putAll hm rfl
  rw [← put_workers hm h]
  rw [askedWorkers] at h
  simp only [ofValue, h, hdata, Option.getD_some]

theorem exists_workers (hm : HasDistinctKeys m)
    (h : ∀ w, setting "workers" m = some w → IsWorkers w) :
    ∃ n, workers? (askedWorkers m) = some n := by
  have hasked : IsWorkers (askedWorkers m) := by
    rw [askedWorkers_eq hm]
    cases hw : setting "workers" m with
    | none => exact .inr ⟨4, by decide, rfl⟩
    | some w => exact h w hw
  exact Option.ne_none_iff_exists'.mp fun hnone => workers?_eq_none_iff.mp hnone hasked

theorem ofValue_of_rejected (hm : HasDistinctKeys m) (h : Rejected m reason) :
    ofValue (.map m) = .error reason := by
  cases h with
  | @workers v hw hv =>
    have hasked : askedWorkers m = v := by rw [askedWorkers_eq hm, hw, Option.getD_some]
    rw [← hasked, ← workers?_eq_none_iff] at hv
    rw [ofValue_of_refused hv, hasked]
  | data hworkers hdata hv =>
    obtain ⟨n, hn⟩ := exists_workers hm hworkers
    rw [ofValue_of_workers hm hn, hdata, Option.getD_some, if_neg (isData_iff.not.mpr hv)]

/-- What is not rejected has good values where they are checked. -/
theorem not_rejected_iff : (¬ ∃ reason, Rejected m reason) ↔
    (∀ w, setting "workers" m = some w → IsWorkers w) ∧
      ∀ v, setting "data" m = some v → IsData v := by
  constructor
  · intro h
    have hworkers : ∀ w, setting "workers" m = some w → IsWorkers w :=
      fun w hw => by_contra fun hv => h ⟨_, .workers hw hv⟩
    exact ⟨hworkers, fun v hv => by_contra fun hdata => h ⟨_, .data hworkers hv hdata⟩⟩
  · rintro ⟨hworkers, hdata⟩ ⟨reason, hrejected⟩
    cases hrejected with
    | workers hw hv => exact hv (hworkers _ hw)
    | data _ hv hisData => exact hisData (hdata _ hv)

theorem ofValue_eq_merged (hm : HasDistinctKeys m) (h : ¬ ∃ reason, Rejected m reason) :
    ofValue (.map m) = .ok (merged m) := by
  obtain ⟨hworkers, hdata⟩ := not_rejected_iff.mp h
  obtain ⟨n, hn⟩ := exists_workers hm hworkers
  have hisData : isData ((setting "data" m).getD (.map [])) := by
    cases hv : setting "data" m with
    | none => rfl
    | some v => exact isData_iff.mpr (hdata v hv)
  rw [ofValue_of_workers hm hn, if_pos hisData]

theorem setting_merged_workers :
    setting "workers" (merged m) = some ((chosen m "workers").getD defaultWorkers) := by
  simp [setting, merged, defaults, get?_cons, sameKey_text_right]

theorem setting_merged_data :
    setting "data" (merged m) = some ((setting "data" m).getD (.map [])) := by
  simp [setting, merged, defaults, get?_cons, sameKey_text_right, chosen_of_ne]

/-- The settings of a project have a number of workers, and data that pass. -/
theorem usable_merged (hm : HasDistinctKeys m) (h : ¬ ∃ reason, Rejected m reason) :
    (∃ n, 1 ≤ n ∧ setting "workers" (merged m) = some (.int n)) ∧
      ∃ v, setting "data" (merged m) = some v ∧ IsData v := by
  obtain ⟨hworkers, hdata⟩ := not_rejected_iff.mp h
  rw [setting_merged_workers, setting_merged_data]
  refine ⟨?_, _, rfl, ?_⟩
  · obtain ⟨n, hn⟩ := exists_workers hm hworkers
    obtain ⟨k, hk, rfl⟩ := exists_int_of_workers? hn
    rw [askedWorkers_eq hm] at hn
    exact ⟨k, hk, congrArg some (getD_chosen_workers hn)⟩
  · cases hv : setting "data" m with
    | none => exact .inl ⟨[], rfl⟩
    | some v => exact hdata v hv

/-! ### The outcome for a file -/

theorem load_of_map [Yaml.Loader] (hread : d.read (filePath root) = .ok (Utf8.encode t))
    (hload : Yaml.Loader.load (Text.unifyBreaks t) = .ok (.map m)) :
    load d root = (ofValue (.map m)).mapError (Fault.ofReason (filePath root)) := by
  rw [load_of_read hread, Encoding.decode, Utf8.decode_eq_ok_iff.mpr rfl]
  show ofText (filePath root) (Text.unifyBreaks t) = _
  rw [ofText, hload]

theorem load_eq_merged (hread : d.read (filePath root) = .ok (Utf8.encode t))
    (hload : Yaml.load (Text.unifyBreaks t) = .ok (.map m))
    (h : ¬ ∃ reason, Rejected m reason) : load d root = .ok (merged m) := by
  rw [load_of_map hread hload, ofValue_eq_merged (Yaml.hasDistinctKeys_of_load hload) h]
  rfl

/-- The error names the file, unless it would show a number of workers that cannot be written. -/
theorem ofReason_eq_invalid_iff {path : Path} {e : ConfigError} :
    Fault.ofReason path reason = .invalid e ↔
      ⟨path, reason⟩ = e ∧ ∀ v, reason = .badWorkers v → v.isWritable := by
  cases reason with
  | badWorkers v =>
    rw [Fault.ofReason]
    by_cases hv : v.isWritable <;> simp [hv]
  | _ => simp [Fault.ofReason]

/-- **How the settings of a file are checked and merged.** A file that is rejected ends with the
error for what is wrong with it, and a project with any other file has the merged settings. The
number of workers is a positive integer in these, and the data are a map or count as not set. -/
theorem load_of_settings (hread : d.read (filePath root) = .ok (Utf8.encode t))
    (hload : Yaml.load (Text.unifyBreaks t) = .ok (.map m)) :
    (∀ reason, Rejected m reason →
      load d root = .error (Fault.ofReason (filePath root) reason)) ∧
    ((∃ e, load d root = .error (.invalid e)) ↔
      ∃ reason, Rejected m reason ∧ ∀ v, reason = .badWorkers v → v.isWritable) ∧
    ((¬ ∃ reason, Rejected m reason) → load d root = .ok (merged m) ∧
      (∃ n, 1 ≤ n ∧ setting "workers" (merged m) = some (.int n)) ∧
      ∃ v, setting "data" (merged m) = some v ∧ IsData v) := by
  have hm := Yaml.hasDistinctKeys_of_load hload
  have hrejected {reason : Reason} (h : Rejected m reason) :
      load d root = .error (Fault.ofReason (filePath root) reason) := by
    rw [load_of_map hread hload, ofValue_of_rejected hm h]
    rfl
  refine ⟨fun _ => hrejected, ⟨?_, ?_⟩,
    fun h => ⟨load_eq_merged hread hload h, usable_merged hm h⟩⟩
  · rintro ⟨e, he⟩
    by_cases h : ∃ reason, Rejected m reason
    · obtain ⟨reason, h⟩ := h
      rw [hrejected h] at he
      exact ⟨reason, h, (ofReason_eq_invalid_iff.mp (Except.error.inj he)).2⟩
    · cases he.symm.trans (load_eq_merged hread hload h)
  · rintro ⟨reason, h, hwritable⟩
    exact ⟨⟨filePath root, reason⟩, (hrejected h).trans
      (congrArg _ (ofReason_eq_invalid_iff.mpr ⟨rfl, hwritable⟩))⟩

/-- A list without items passes for the site's data, and stays a list. -/
theorem load_of_empty_list :
    let d : Disk := ⟨[], [(["project"], .directory),
      (["project", "folio.yaml"], .file (Utf8.encode "data: []\n".toList))]⟩
    let m : List (Value × Value) := [("data", .list [])]
    d.read (filePath "project") = .ok (Utf8.encode "data: []\n".toList) ∧
      Yaml.load (Text.unifyBreaks "data: []\n".toList) = .ok (.map m) ∧
      load d "project" = .ok (merged m) ∧ setting "data" (merged m) = some (.list []) := by
  intro d m
  have hread : d.read (filePath "project") = .ok (Utf8.encode "data: []\n".toList) := by
    decide +kernel
  have hload : Yaml.load (Text.unifyBreaks "data: []\n".toList) = .ok (.map m) := by rfl
  have hdata : setting "data" m = some (.list []) := by rfl
  have hrejected : ¬ ∃ reason, Rejected m reason := by
    refine not_rejected_iff.mpr ⟨nofun, fun v hv => ?_⟩
    cases hdata.symm.trans hv
    exact .inr (by decide)
  obtain ⟨-, -, hmerged⟩ := load_of_settings hread hload
  exact ⟨hread, hload, (hmerged hrejected).1, by rw [setting_merged_data, hdata]; rfl⟩

end Pageloom.Config
