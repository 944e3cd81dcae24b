import Pageloom.Proofs.Text.Utf8
import Pageloom.Proofs.Yaml.Load
import Pageloom.Site.Config

/-!
# How reading a configuration can end

A configuration file that can be opened gives a configuration, or an error that names the file,
with some exceptions. Its bytes may be no text; the loader may fail otherwise than by finding the
form of the text wrong; and a number of workers may be refused that cannot be written in the message
that refuses it. This is so for every loader. By the rules of this library the text spells something
that does not exist if its form is right and the loader fails.

## Main definitions

* `Config.IsReported`: the outcome is a configuration or an error that names the file.
* `Config.Escapes`: the faults of bytes that are no such error.
* `Config.Cause`: what is wrong with the bytes then, by the rules of this library.

## Main results

* `Config.ends_load`, `Config.load_of_escapes`: the outcome for the bytes of a file.
* `Config.load_isReported_iff`: which files end with a configuration or with such an error.
-/

namespace Pageloom.Config

open Yaml (Loader)

variable {d : Disk} {root : Path} {bytes : List UInt8} {t : Text} {fault : Fault}

/-- The path of the configuration file of a project. -/
def filePath (root : Path) : Path := root.append (Path.parse fileName)

/-- The number of workers that the entries of a file ask for. -/
def askedWorkers (entries : List (Value × Value)) : Value :=
  (setting "workers" (Value.putAll defaults entries)).getD .null

/-- What is wrong with the bytes of a file when they have a fault other than that they hold no
configuration, by the rules of this library. -/
inductive Cause (bytes : List UInt8) : Fault → Prop where
  | bytes {report : Text} (h : ∀ t, bytes ≠ Utf8.encode t) : Cause bytes (.undecodable report)
  | text {t : Text} {f : Yaml.Fault} (ht : bytes = Utf8.encode t)
      (h : Yaml.Unfit (Text.unifyBreaks t) f) : Cause bytes (.value f)
  | workers {t : Text} {entries : List (Value × Value)} (ht : bytes = Utf8.encode t)
      (hload : Yaml.load (Text.unifyBreaks t) = .ok (.map entries))
      (hrefused : workers? (askedWorkers entries) = none)
      (hwrite : (askedWorkers entries).isWritable = false) :
      Cause bytes (.value (.notInteger .unwritable))

/-! ### Settings -/

variable {entries : List (Value × Value)} {path : Path}

theorem ofValue_of_refused (h : workers? (askedWorkers entries) = none) :
    ofValue (.map entries) = .error (.badWorkers (askedWorkers entries)) := by
  rw [askedWorkers] at h ⊢
  simp only [ofValue, h]

theorem ofReason_of_not_isWritable {v : Value} (h : v.isWritable = false) :
    Fault.ofReason path (.badWorkers v) = .value (.notInteger .unwritable) := by
  rw [Fault.ofReason, h, if_neg Bool.false_ne_true]

/-- The settings of a document are refused for a reason that is worded, unless the wording would
show a number of workers that cannot be written. -/
theorem ends_ofValue (path : Path) (v : Value) :
    Ends (fun fault => (∃ reason, fault = .invalid ⟨path, reason⟩) ∨
        ∃ entries, v = .map entries ∧ workers? (askedWorkers entries) = none ∧
          (askedWorkers entries).isWritable = false ∧ fault = .value (.notInteger .unwritable))
      (fun _ => True) ((ofValue v).mapError (Fault.ofReason path)) := by
  cases v with
  | null => trivial
  | map entries =>
    cases hworkers : workers? (askedWorkers entries) with
    | none =>
      rw [ofValue_of_refused hworkers]
      cases hwrite : (askedWorkers entries).isWritable with
      | false => exact .inr ⟨entries, rfl, hworkers, hwrite, ofReason_of_not_isWritable hwrite⟩
      | true => exact .inl ⟨_, if_pos hwrite⟩
    | some n =>
      rw [askedWorkers] at hworkers
      simp only [ofValue, hworkers]
      split
      · trivial
      · exact .inl ⟨_, rfl⟩
  | _ => exact .inl ⟨_, rfl⟩

/-! ### Files -/

/-- A file that can be read is there. -/
theorem exists?_of_read (h : d.read path = .ok bytes) : d.exists? path = .ok true := by
  rw [Disk.read] at h
  split at h
  · next hstatus => rw [Disk.exists?, hstatus]
  · cases h
  · cases h

section

variable [Loader]

/-- The project has a configuration, or its file is said to be no configuration. -/
def IsReported (d : Disk) (root : Path) : Prop :=
  (∃ c, load d root = .ok c) ∨ ∃ reason, load d root = .error (.invalid ⟨filePath root, reason⟩)

/-- The faults of the bytes of a file other than that they hold no configuration: they are no text,
the loader fails otherwise than by finding the form of the text wrong, or the number of workers is
refused and cannot be written. -/
inductive Escapes (bytes : List UInt8) : Fault → Prop where
  | undecodable {m : Utf8.Malformed} (h : Utf8.decode bytes = .error m) :
      Escapes bytes (.undecodable (m.message "utf-8"))
  | value {t : Text} {f : Yaml.Fault} (ht : bytes = Utf8.encode t)
      (hload : Loader.load (Text.unifyBreaks t) = .error f) (hform : f ≠ .malformed) :
      Escapes bytes (.value f)
  | workers {t : Text} {entries : List (Value × Value)} (ht : bytes = Utf8.encode t)
      (hload : Loader.load (Text.unifyBreaks t) = .ok (.map entries))
      (hrefused : workers? (askedWorkers entries) = none)
      (hwrite : (askedWorkers entries).isWritable = false) :
      Escapes bytes (.value (.notInteger .unwritable))

theorem load_of_read (h : d.read (filePath root) = .ok bytes) :
    load d root =
      match Encoding.utf8.decode bytes with
      | .error report => .error (.undecodable report)
      | .ok t => ofText (filePath root) (Text.unifyBreaks t) := by
  have hexists := exists?_of_read h
  rw [filePath] at h hexists
  simp only [load, hexists, h]
  rfl

/-- What reading a file comes to if it is no configuration. -/
theorem ends_load (h : d.read (filePath root) = .ok bytes) :
    Ends (fun fault => (∃ reason, fault = .invalid ⟨filePath root, reason⟩) ∨ Escapes bytes fault)
      (fun _ => True) (load d root) := by
  rw [load_of_read h, Encoding.decode]
  cases hdecode : Utf8.decode bytes with
  | error m => exact .inr (.undecodable hdecode)
  | ok t =>
    have hbytes := Utf8.decode_eq_ok_iff.mp hdecode
    show Ends _ _ (ofText (filePath root) (Text.unifyBreaks t))
    rw [ofText]
    split
    · exact .inl ⟨_, rfl⟩
    · next f hform hload => exact .inr (.value hbytes hload hform)
    · next v hload =>
      refine (ends_ofValue (filePath root) v).monoFault fun fault hfault => ?_
      rcases hfault with hreason | ⟨entries, rfl, hrefused, hwrite, rfl⟩
      · exact .inl hreason
      · exact .inr (.workers hbytes hload hrefused hwrite)

theorem load_of_escapes (h : d.read (filePath root) = .ok bytes) (hfault : Escapes bytes fault) :
    load d root = .error fault := by
  rw [load_of_read h, Encoding.decode]
  cases hfault with
  | undecodable hdecode =>
    rw [hdecode]
    rfl
  | @value t f ht hload hform =>
    rw [Utf8.decode_eq_ok_iff.mpr ht]
    show ofText (filePath root) (Text.unifyBreaks t) = .error (.value f)
    rw [ofText, hload]
    cases f <;> first | rfl | exact absurd rfl hform
  | @workers t entries ht hload hrefused hwrite =>
    rw [Utf8.decode_eq_ok_iff.mpr ht]
    show ofText (filePath root) (Text.unifyBreaks t) = .error (.value (.notInteger .unwritable))
    rw [ofText, hload]
    simp only [ofValue_of_refused hrefused, Except.mapError, ofReason_of_not_isWritable hwrite]

theorem Escapes.ne_invalid (h : Escapes bytes fault) (e : ConfigError) : fault ≠ .invalid e := by
  cases h <;> simp

/-- What is wrong with the bytes of a file, if the loader keeps to the rules. -/
theorem Escapes.cause (h : Escapes bytes fault)
    (hrules : ∀ t, bytes = Utf8.encode t →
      Loader.load (Text.unifyBreaks t) = Yaml.load (Text.unifyBreaks t)) : Cause bytes fault := by
  cases h with
  | undecodable hdecode =>
    refine .bytes fun t ht => ?_
    cases hdecode.symm.trans (Utf8.decode_eq_ok_iff.mpr ht)
  | value ht hload hform =>
    exact .text ht (Yaml.unfit_of_load ((hrules _ ht).symm.trans hload) hform)
  | workers ht hload hrefused hwrite =>
    exact .workers ht ((hrules _ ht).symm.trans hload) hrefused hwrite

/-- **When every unusable configuration is reported as such.** Whatever loader reads it, a file
gives a configuration or an error that names it, unless its bytes have a fault of another kind; then
that fault is the outcome. If the loader keeps to the rules of this library there, the bytes are no
text, or the text holds something that does not exist, or a number of workers is refused that is too
long for the message. -/
theorem load_isReported_iff (h : d.read (filePath root) = .ok bytes) :
    (IsReported d root ↔ ¬ ∃ fault, Escapes bytes fault) ∧
      ∀ fault, Escapes bytes fault → load d root = .error fault ∧
        ((∀ t, bytes = Utf8.encode t →
          Loader.load (Text.unifyBreaks t) = Yaml.load (Text.unifyBreaks t)) →
          Cause bytes fault) := by
  refine ⟨⟨?_, fun hno => ?_⟩, fun fault hfault => ⟨load_of_escapes h hfault, hfault.cause⟩⟩
  · rintro (⟨c, hc⟩ | ⟨reason, hreason⟩) ⟨fault, hfault⟩
    · cases hc.symm.trans (load_of_escapes h hfault)
    · cases hreason.symm.trans (load_of_escapes h hfault)
      exact hfault.ne_invalid _ rfl
  · cases hload : load d root with
    | ok c => exact .inl ⟨c, hload⟩
    | error fault =>
      rcases (ends_load h).fault hload with ⟨reason, rfl⟩ | hfault
      · exact .inr ⟨reason, hload⟩
      · exact absurd ⟨fault, hfault⟩ hno

end

/-- A file with one byte that begins no character. -/
theorem load_isReported_of_bad_byte :
    let d : Disk := ⟨[], [(["project"], .directory), (["project", "folio.yaml"], .file [0xFF])]⟩
    d.read (filePath "project") = .ok [0xFF] ∧ ¬ IsReported d "project" := by
  intro d
  have hread : d.read (filePath "project") = .ok [0xFF] := by decide +kernel
  have hdecode : Utf8.decode [0xFF] = .error ⟨0, 1, 0xFF, .invalidStart⟩ := by decide
  refine ⟨hread, fun hreported => ?_⟩
  exact (load_isReported_iff hread).1.mp hreported ⟨_, .undecodable hdecode⟩

end Pageloom.Config
