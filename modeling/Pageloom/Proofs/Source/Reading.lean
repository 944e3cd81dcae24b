import Pageloom.Proofs.Text.Breaks
import Pageloom.Proofs.Text.Utf8
import Pageloom.Source

/-!
# Which files are page sources

The file of a page may begin with a byte order mark, and behind it has to be UTF-8. Nothing else is
asked of it, and what is no UTF-8 is never a page source, whatever else the file holds. A file that
ends inside its mark is taken for an empty one, though the beginning of a mark is no UTF-8.

## Main definitions

* `Encoding.Spells`: bytes stand for a text, with a mark or without one.

## Main results

* `Encoding.dropMark_eq_encode_iff`: dropping the mark leaves the encoding of the text.
* `Source.read_eq_ok_iff`: which files give a text, and which text.
* `Source.read_marked`: the outcome for every file.
-/

namespace Pageloom

variable {bytes : List UInt8} {t u : Text} {d : Disk} {p : Path}

/-! ### The mark -/

namespace Encoding

/-- The bytes stand for the text: they are its encoding, behind a mark or without one, or they end
inside the mark. -/
inductive Spells : List UInt8 → Text → Prop where
  | marked (u : Text) : Spells (mark ++ Utf8.encode u) u
  | plain {u : Text} (h : ¬ mark <+: Utf8.encode u) : Spells (Utf8.encode u) u
  | one : Spells [0xEF] []
  | two : Spells [0xEF, 0xBB] []

theorem prefix_mark_iff :
    bytes <+: mark ↔ bytes = [] ∨ bytes = [0xEF] ∨ bytes = [0xEF, 0xBB] ∨ bytes = mark := by
  constructor
  · intro h
    rw [List.prefix_iff_eq_take.mp h]
    have hlength : bytes.length ≤ 3 := h.length_le
    generalize bytes.length = n at hlength
    obtain rfl | rfl | rfl | rfl : n = 0 ∨ n = 1 ∨ n = 2 ∨ n = 3 := by omega
    all_goals simp [mark]
  · rintro (rfl | rfl | rfl | rfl) <;> decide

theorem dropMark_of_isPrefix (h : bytes <+: mark) : dropMark bytes = [] :=
  if_pos (List.isPrefixOf_iff_prefix.mpr h)

theorem dropMark_of_not_isPrefix (h : ¬ bytes <+: mark) (h' : ¬ mark <+: bytes) :
    dropMark bytes = bytes := by
  rw [dropMark, if_neg (by simpa using h), if_neg (by simpa using h')]

theorem dropMark_mark_append (rest : List UInt8) : dropMark (mark ++ rest) = rest := by
  by_cases h : rest = []
  · subst h
    decide
  · have hlong : ¬ mark ++ rest <+: mark := fun hprefix => h <| by
      have hlength := hprefix.length_le
      rw [List.length_append] at hlength
      exact List.eq_nil_of_length_eq_zero (by omega)
    rw [dropMark, if_neg (by simpa using hlong), if_pos (by simp), List.drop_left]

theorem encode_eq_nil_iff : [] = Utf8.encode u ↔ u = [] := by
  rw [← Utf8.decode_eq_ok_iff]
  exact ⟨fun h => (Except.ok.inj h).symm, fun h => h ▸ rfl⟩

/-- **Behind the mark stands the encoding** of the text that the bytes stand for. -/
theorem dropMark_eq_encode_iff : dropMark bytes = Utf8.encode u ↔ Spells bytes u := by
  constructor
  · intro h
    by_cases hshort : bytes <+: mark
    · -- Only a mark can be so short, or a part of one.
      rw [dropMark_of_isPrefix hshort, encode_eq_nil_iff] at h
      subst h
      rcases prefix_mark_iff.mp hshort with rfl | rfl | rfl | rfl
      · exact .plain (u := []) (by decide)
      · exact .one
      · exact .two
      · exact .marked []
    · by_cases hmark : mark <+: bytes
      · obtain ⟨rest, rfl⟩ := hmark
        rw [dropMark_mark_append] at h
        exact h ▸ .marked u
      · rw [dropMark_of_not_isPrefix hshort hmark] at h
        exact h ▸ .plain (h ▸ hmark)
  · intro h
    cases h with
    | marked => exact dropMark_mark_append _
    | plain hmark =>
      by_cases hshort : Utf8.encode u <+: mark
      · -- No text is encoded to a proper part of the mark.
        rcases prefix_mark_iff.mp hshort with h | h | h | h
        · rw [h]
          decide
        · cases Utf8.decode_eq_ok_iff.mpr h.symm
        · cases Utf8.decode_eq_ok_iff.mpr h.symm
        · exact absurd (h ▸ List.prefix_rfl) hmark
      · exact dropMark_of_not_isPrefix hshort hmark
    | one => decide
    | two => decide

theorem decode_marked_eq_ok_iff : utf8Marked.decode bytes = .ok u ↔ Spells bytes u := by
  rw [← dropMark_eq_encode_iff, ← Utf8.decode_eq_ok_iff, decode]
  cases Utf8.decode (dropMark bytes) <;> simp [Except.mapError]

end Encoding

/-! ### Files -/

namespace Source

/-- **Which files give a text, and which text.** -/
theorem read_eq_ok_iff (h : d.read p = .ok bytes) :
    read .utf8Marked d p = .ok t ↔ ∃ u, Encoding.Spells bytes u ∧ Text.Unifies u t := by
  simp only [← Encoding.decode_marked_eq_ok_iff, Text.unifies_iff, read, h]
  cases Encoding.utf8Marked.decode bytes <;> simp [eq_comm]

/-- A file that gives no text is reported with its path and the first bytes that are no UTF-8. -/
theorem read_of_not_spells (h : d.read p = .ok bytes) (hbytes : ∀ u, ¬ Encoding.Spells bytes u) :
    ∃ m, Utf8.decode (Encoding.dropMark bytes) = .error m ∧
      read .utf8Marked d p = .error (.unreadable ⟨p, some (m.message "utf-8")⟩) := by
  cases hdecode : Utf8.decode (Encoding.dropMark bytes) with
  | error m =>
    refine ⟨m, rfl, ?_⟩
    simp only [read, h, Encoding.decode, hdecode, Except.mapError]
  | ok u =>
    have hspells : Encoding.Spells bytes u :=
      Encoding.dropMark_eq_encode_iff.mp (Utf8.decode_eq_ok_iff.mp hdecode)
    exact absurd hspells (hbytes u)

/-- **What comes of a file** that is read as the source of a page. It gives a text exactly if its
bytes stand for one, and then that text with line feeds for all its line breaks, so no carriage
return is left. Otherwise the path is reported, with the first bytes that are no UTF-8. -/
theorem read_marked (h : d.read p = .ok bytes) :
    (∀ t, read .utf8Marked d p = .ok t ↔ ∃ u, Encoding.Spells bytes u ∧ Text.Unifies u t) ∧
      (∀ t, read .utf8Marked d p = .ok t → '\r' ∉ t) ∧
      ((∀ u, ¬ Encoding.Spells bytes u) →
        ∃ m, Utf8.decode (Encoding.dropMark bytes) = .error m ∧
          read .utf8Marked d p = .error (.unreadable ⟨p, some (m.message "utf-8")⟩)) := by
  refine ⟨fun t => read_eq_ok_iff h, fun t ht => ?_, read_of_not_spells h⟩
  obtain ⟨u, -, hunifies⟩ := (read_eq_ok_iff h).mp ht
  exact hunifies.return_notMem

/-- A file with a mark, with a break of each kind, and with a character of four bytes; a file that
ends inside its mark; and one that spells the slash in two bytes. -/
theorem read_marked_each_way :
    let d : Disk := ⟨[], [
      (["text.md"], .file (Encoding.mark ++ Utf8.encode "a\r\n😀\r\rb\n")),
      (["short.md"], .file [0xEF, 0xBB]),
      (["long.md"], .file [0x61, 0xC0, 0xAF])]⟩
    read .utf8Marked d "text.md" = .ok "a\n😀\n\nb\n" ∧
      read .utf8Marked d "short.md" = .ok [] ∧
      (∀ t, read .utf8Marked d "long.md" ≠ .ok t) ∧
      ∃ report, read .utf8Marked d "long.md" = .error (.unreadable ⟨"long.md", some report⟩) := by
  intro d
  have htext : d.read "text.md" = .ok (Encoding.mark ++ Utf8.encode "a\r\n😀\r\rb\n") := by decide
  have hshort : d.read "short.md" = .ok [0xEF, 0xBB] := by decide
  have hlong : d.read "long.md" = .ok [0x61, 0xC0, 0xAF] := by decide
  have hspells : ∀ u, ¬ Encoding.Spells [0x61, 0xC0, 0xAF] u := by
    intro u h
    rw [← Encoding.decode_marked_eq_ok_iff] at h
    cases h
  refine ⟨((read_marked htext).1 _).mpr ⟨_, .marked _, Text.unifies_iff.mpr (by decide)⟩,
    ((read_marked hshort).1 _).mpr ⟨_, .two, .nil⟩, fun t ht => ?_, ?_⟩
  · obtain ⟨u, hu, -⟩ := ((read_marked hlong).1 t).mp ht
    exact hspells u hu
  · obtain ⟨m, -, hread⟩ := (read_marked hlong).2.2 hspells
    exact ⟨_, hread⟩

end Source

end Pageloom
