import Mathlib.Data.Nat.Notation
import Mathlib.Tactic.Common
import Pageloom.Text.Utf8

/-!
# Decoding undoes encoding

Bytes are decoded to a text exactly if they are what the text is encoded to. So there is at most one
text for them, and where decoding fails there is none.

Both directions go by what a character looks like in bytes: a lead byte says how many bytes follow,
and keeps the first of them in a range of its own. These ranges are what makes a code a character
that is not encoded in fewer bytes. Reading and encoding are each compared with that.

## Main definitions

* `Utf8.IsSequence`: the bytes of a code.

## Main results

* `Utf8.isSequence_encodeChar`, `Utf8.IsSequence.encodeChar`: what a character is encoded to.
* `Utf8.isSequence_of_readChar`, `Utf8.IsSequence.readChar`: what a character is read from.
* `Utf8.decode_eq_ok_iff`: a text.
-/

namespace Pageloom.Utf8

variable {b : UInt8} {bs tail : List UInt8} {c : Char} {t : Text} {n code : ℕ}

/-! ### Characters in bytes -/

/-- A byte behind a lead byte. -/
def IsTail (x : UInt8) : Prop := 0x80 ≤ x.toNat ∧ x.toNat ≤ 0xBF

/-- The bytes of a code. Codes that fit in fewer bytes are kept out, and so are surrogates and the
codes above the last character. -/
inductive IsSequence : List UInt8 → ℕ → Prop where
  | one {b : UInt8} (hb : b.toNat < 0x80) : IsSequence [b] b.toNat
  | two {b x : UInt8} (hb : 0xC2 ≤ b.toNat ∧ b.toNat < 0xE0) (hx : IsTail x) :
      IsSequence [b, x] (b.toNat % 32 * 64 + (x.toNat - 0x80))
  | three {b x y : UInt8} (hb : 0xE0 ≤ b.toNat ∧ b.toNat < 0xF0) (hx : IsTail x) (hy : IsTail y)
      (hlong : b.toNat = 0xE0 → 0xA0 ≤ x.toNat) (hsurrogate : b.toNat = 0xED → x.toNat ≤ 0x9F) :
      IsSequence [b, x, y] ((b.toNat % 16 * 64 + (x.toNat - 0x80)) * 64 + (y.toNat - 0x80))
  | four {b x y z : UInt8} (hb : 0xF0 ≤ b.toNat ∧ b.toNat < 0xF5) (hx : IsTail x) (hy : IsTail y)
      (hz : IsTail z) (hlong : b.toNat = 0xF0 → 0x90 ≤ x.toNat)
      (hlast : b.toNat = 0xF4 → x.toNat ≤ 0x8F) :
      IsSequence [b, x, y, z]
        (((b.toNat % 8 * 64 + (x.toNat - 0x80)) * 64 + (y.toNat - 0x80)) * 64 + (z.toNat - 0x80))

/-! ### Encoding one character -/

theorem toNat_ofNat (h : code.isValidChar) : (Char.ofNat code).toNat = code := by
  have hchar : Char.ofNat code = Char.ofNatAux code h := dif_pos h
  rw [hchar]
  rfl

theorem ofNat_eq {m : ℕ} (h : m = b.toNat) : UInt8.ofNat m = b := by
  rw [h, UInt8.ofNat_toNat]

theorem toNat_ofNat_byte {m : ℕ} (hm : m < 256) : (UInt8.ofNat m).toNat = m :=
  UInt8.toNat_ofNat_of_lt' hm

/-- The bytes of a character by the size of its code. -/
theorem encodeChar_eq (c : Char) :
    String.utf8EncodeChar c =
      if c.toNat ≤ 0x7F then [UInt8.ofNat c.toNat]
      else if c.toNat ≤ 0x7FF then
        [UInt8.ofNat (c.toNat / 64 % 32 + 192), UInt8.ofNat (c.toNat % 64 + 128)]
      else if c.toNat ≤ 0xFFFF then
        [UInt8.ofNat (c.toNat / 4096 % 16 + 224), UInt8.ofNat (c.toNat / 64 % 64 + 128),
          UInt8.ofNat (c.toNat % 64 + 128)]
      else
        [UInt8.ofNat (c.toNat / 262144 % 8 + 240), UInt8.ofNat (c.toNat / 4096 % 64 + 128),
          UInt8.ofNat (c.toNat / 64 % 64 + 128), UInt8.ofNat (c.toNat % 64 + 128)] := rfl

/-- A sequence spells a character, which is encoded to it. -/
theorem IsSequence.encodeChar (h : IsSequence bs code) :
    String.utf8EncodeChar (Char.ofNat code) = bs := by
  cases h with
  | @one b hb =>
    rw [encodeChar_eq, toNat_ofNat (.inl (by omega)), if_pos (by omega), ofNat_eq rfl]
  | @two b x hb hx =>
    rw [IsTail] at hx
    rw [encodeChar_eq, toNat_ofNat (.inl (by omega)), if_neg (by omega), if_pos (by omega),
      ofNat_eq (b := b) (by omega), ofNat_eq (b := x) (by omega)]
  | @three b x y hb hx hy hlong hsurrogate =>
    rw [IsTail] at hx hy
    rw [encodeChar_eq, toNat_ofNat (by show _ ∨ _; omega), if_neg (by omega), if_neg (by omega),
      if_pos (by omega), ofNat_eq (b := b) (by omega), ofNat_eq (b := x) (by omega),
      ofNat_eq (b := y) (by omega)]
  | @four b x y z hb hx hy hz hlong hlast =>
    rw [IsTail] at hx hy hz
    rw [encodeChar_eq, toNat_ofNat (by show _ ∨ _; omega), if_neg (by omega), if_neg (by omega),
      if_neg (by omega), ofNat_eq (b := b) (by omega), ofNat_eq (b := x) (by omega),
      ofNat_eq (b := y) (by omega), ofNat_eq (b := z) (by omega)]

/-- A byte that is made of six bits of a code. -/
theorem isTail_ofNat (m : ℕ) :
    IsTail (UInt8.ofNat (m % 64 + 128)) ∧ (UInt8.ofNat (m % 64 + 128)).toNat = m % 64 + 128 := by
  have hm := toNat_ofNat_byte (m := m % 64 + 128) (by omega)
  rw [IsTail, hm]
  omega

/-- What a character is encoded to is a sequence for its code. -/
theorem isSequence_encodeChar (c : Char) : IsSequence (String.utf8EncodeChar c) c.toNat := by
  have hvalid : c.toNat < 0xD800 ∨ 0xDFFF < c.toNat ∧ c.toNat < 0x110000 := c.valid
  obtain ⟨hz, hz'⟩ := isTail_ofNat c.toNat
  obtain ⟨hy, hy'⟩ := isTail_ofNat (c.toNat / 64)
  obtain ⟨hx, hx'⟩ := isTail_ofNat (c.toNat / 4096)
  rw [encodeChar_eq]
  split
  · have hb := toNat_ofNat_byte (m := c.toNat) (by omega)
    have hcode := IsSequence.one (b := UInt8.ofNat c.toNat) (by omega)
    rwa [hb] at hcode
  split
  · have hb := toNat_ofNat_byte (m := c.toNat / 64 % 32 + 192) (by omega)
    convert IsSequence.two (b := UInt8.ofNat (c.toNat / 64 % 32 + 192)) (by omega) hz using 1
    omega
  split
  · have hb := toNat_ofNat_byte (m := c.toNat / 4096 % 16 + 224) (by omega)
    convert IsSequence.three (b := UInt8.ofNat (c.toNat / 4096 % 16 + 224)) (by omega) hy hz
      (by omega) (by omega) using 1
    omega
  · have hb := toNat_ofNat_byte (m := c.toNat / 262144 % 8 + 240) (by omega)
    convert IsSequence.four (b := UInt8.ofNat (c.toNat / 262144 % 8 + 240)) (by omega) hx hy hz
      (by omega) (by omega) using 1
    omega

/-! ### Reading one character -/

/-- What a lead byte says. -/
theorem leadByte?_eq_some_iff {b tail low high : ℕ} :
    leadByte? b = some (tail, low, high) ↔
      (tail = 1 ∧ 0xC2 ≤ b ∧ b < 0xE0 ∧ low = 0x80 ∧ high = 0xBF) ∨
      (tail = 2 ∧ 0xE0 ≤ b ∧ b < 0xF0 ∧ low = (if b = 0xE0 then 0xA0 else 0x80) ∧
        high = if b = 0xED then 0x9F else 0xBF) ∨
      (tail = 3 ∧ 0xF0 ≤ b ∧ b < 0xF5 ∧ low = (if b = 0xF0 then 0x90 else 0x80) ∧
        high = if b = 0xF4 then 0x8F else 0xBF) := by
  rw [leadByte?]
  grind

/-- A sequence goes on with a byte in the range, and then with bytes of any continuation. -/
theorem readTail_succ_eq_ok_iff {missing seen low high value : ℕ} :
    readTail code (missing + 1) seen low high bs = .ok value ↔
      ∃ x rest, bs = x :: rest ∧ low ≤ x.toNat ∧ x.toNat ≤ high ∧
        readTail (code * 64 + (x.toNat - 0x80)) missing (seen + 1) 0x80 0xBF rest = .ok value := by
  cases bs with
  | nil => simp [readTail]
  | cons x rest =>
    by_cases hx : low ≤ x.toNat ∧ x.toNat ≤ high
    · simp [readTail, hx]
    · have hx' : ¬ (low ≤ x.toNat && x.toNat ≤ high) = true := by simpa using hx
      rw [readTail, if_neg hx']
      refine ⟨nofun, ?_⟩
      rintro ⟨_, _, ⟨⟩, hlow, hhigh, -⟩
      exact absurd ⟨hlow, hhigh⟩ hx

/-- How a character of several bytes is read. -/
theorem readChar_eq_ok_iff_of_le (hb : 0x80 ≤ b.toNat) :
    readChar b bs = .ok (c, n) ↔
      ∃ low high value, leadByte? b.toNat = some (n, low, high) ∧
        readTail (b.toNat % (if n = 1 then 32 else if n = 2 then 16 else 8)) n 1 low high bs =
          .ok value ∧ c = Char.ofNat value := by
  rw [readChar, if_neg (by omega)]
  rcases hlead : leadByte? b.toNat with _ | ⟨tail, low, high⟩
  · simp
  · cases htail : readTail (b.toNat % (if tail = 1 then 32 else if tail = 2 then 16 else 8)) tail 1
      low high bs with
    | error e =>
      refine ⟨by simp [htail, Except.map], ?_⟩
      rintro ⟨low, high, value, ⟨⟩, hvalue, -⟩
      cases htail.symm.trans hvalue
    | ok value =>
      simp only [htail, Except.map, Except.ok.injEq, Prod.mk.injEq]
      constructor
      · rintro ⟨rfl, rfl⟩
        exact ⟨low, high, value, rfl, htail, rfl⟩
      · rintro ⟨low, high, value', ⟨⟩, hvalue, rfl⟩
        cases htail.symm.trans hvalue
        exact ⟨rfl, rfl⟩

/-- A character that is read is spelled by the bytes that it takes. -/
theorem isSequence_of_readChar (h : readChar b bs = .ok (c, n)) :
    ∃ code, c = Char.ofNat code ∧ IsSequence (b :: bs.take n) code := by
  by_cases hb : b.toNat < 0x80
  · rw [readChar, if_pos hb] at h
    cases h
    exact ⟨_, rfl, .one hb⟩
  obtain ⟨low, high, value, hlead, htail, rfl⟩ := (readChar_eq_ok_iff_of_le (by omega)).mp h
  rcases leadByte?_eq_some_iff.mp hlead with ⟨rfl, hlo, hhi, rfl, rfl⟩ | ⟨rfl, hlo, hhi, rfl, rfl⟩ |
    ⟨rfl, hlo, hhi, rfl, rfl⟩
  · obtain ⟨x, rest, rfl, hx, hx', hvalue⟩ := readTail_succ_eq_ok_iff.mp htail
    obtain rfl : b.toNat % 32 * 64 + (x.toNat - 0x80) = value := Except.ok.inj hvalue
    exact ⟨_, rfl, .two ⟨hlo, hhi⟩ ⟨hx, hx'⟩⟩
  · obtain ⟨x, rest, rfl, hx, hx', hvalue⟩ := readTail_succ_eq_ok_iff.mp htail
    obtain ⟨y, rest, rfl, hy, hy', hvalue⟩ := readTail_succ_eq_ok_iff.mp hvalue
    obtain rfl : (b.toNat % 16 * 64 + (x.toNat - 0x80)) * 64 + (y.toNat - 0x80) = value :=
      Except.ok.inj hvalue
    obtain ⟨hrange, hlong, hsurrogate⟩ : IsTail x ∧ (b.toNat = 0xE0 → 0xA0 ≤ x.toNat) ∧
        (b.toNat = 0xED → x.toNat ≤ 0x9F) := by
      rw [IsTail]
      split at hx <;> split at hx' <;> omega
    exact ⟨_, rfl, .three ⟨hlo, hhi⟩ hrange ⟨hy, hy'⟩ hlong hsurrogate⟩
  · obtain ⟨x, rest, rfl, hx, hx', hvalue⟩ := readTail_succ_eq_ok_iff.mp htail
    obtain ⟨y, rest, rfl, hy, hy', hvalue⟩ := readTail_succ_eq_ok_iff.mp hvalue
    obtain ⟨z, rest, rfl, hz, hz', hvalue⟩ := readTail_succ_eq_ok_iff.mp hvalue
    obtain rfl : ((b.toNat % 8 * 64 + (x.toNat - 0x80)) * 64 + (y.toNat - 0x80)) * 64 +
        (z.toNat - 0x80) = value := Except.ok.inj hvalue
    obtain ⟨hrange, hlong, hlast⟩ : IsTail x ∧ (b.toNat = 0xF0 → 0x90 ≤ x.toNat) ∧
        (b.toNat = 0xF4 → x.toNat ≤ 0x8F) := by
      rw [IsTail]
      split at hx <;> split at hx' <;> omega
    exact ⟨_, rfl, .four ⟨hlo, hhi⟩ hrange ⟨hy, hy'⟩ ⟨hz, hz'⟩ hlong hlast⟩

/-- A sequence is read as the character it spells, whatever follows it. -/
theorem IsSequence.readChar (h : IsSequence (b :: tail) code) (rest : List UInt8) :
    readChar b (tail ++ rest) = .ok (Char.ofNat code, tail.length) := by
  cases h with
  | one hb => exact if_pos hb
  | two hb hx =>
    refine (readChar_eq_ok_iff_of_le (by omega)).mpr ⟨_, _, _,
      leadByte?_eq_some_iff.mpr (.inl ⟨rfl, hb.1, hb.2, rfl, rfl⟩), ?_, rfl⟩
    exact readTail_succ_eq_ok_iff.mpr ⟨_, _, rfl, hx.1, hx.2, rfl⟩
  | three hb hx hy hlong hsurrogate =>
    refine (readChar_eq_ok_iff_of_le (by omega)).mpr ⟨_, _, _,
      leadByte?_eq_some_iff.mpr (.inr (.inl ⟨rfl, hb.1, hb.2, rfl, rfl⟩)), ?_, rfl⟩
    rw [IsTail] at hx
    refine readTail_succ_eq_ok_iff.mpr ⟨_, _, rfl, by split <;> omega, by split <;> omega, ?_⟩
    exact readTail_succ_eq_ok_iff.mpr ⟨_, _, rfl, hy.1, hy.2, rfl⟩
  | four hb hx hy hz hlong hlast =>
    refine (readChar_eq_ok_iff_of_le (by omega)).mpr ⟨_, _, _,
      leadByte?_eq_some_iff.mpr (.inr (.inr ⟨rfl, hb.1, hb.2, rfl, rfl⟩)), ?_, rfl⟩
    rw [IsTail] at hx
    refine readTail_succ_eq_ok_iff.mpr ⟨_, _, rfl, by split <;> omega, by split <;> omega, ?_⟩
    refine readTail_succ_eq_ok_iff.mpr ⟨_, _, rfl, hy.1, hy.2, ?_⟩
    exact readTail_succ_eq_ok_iff.mpr ⟨_, _, rfl, hz.1, hz.2, rfl⟩

theorem encodeChar_of_readChar (h : readChar b bs = .ok (c, n)) :
    String.utf8EncodeChar c = b :: bs.take n := by
  obtain ⟨code, rfl, hcode⟩ := isSequence_of_readChar h
  exact hcode.encodeChar

theorem readChar_of_encodeChar (h : String.utf8EncodeChar c = b :: tail) (rest : List UInt8) :
    readChar b (tail ++ rest) = .ok (c, tail.length) := by
  have hcode := (h ▸ isSequence_encodeChar c).readChar rest
  rwa [Char.ofNat_toNat] at hcode

/-! ### Texts -/

theorem encode_cons (c : Char) (t : Text) : encode (c :: t) = String.utf8EncodeChar c ++ encode t :=
  List.flatMap_cons

/-- A text that is decoded is encoded to the bytes behind those that are passed over. -/
theorem encode_of_decodeFrom {position skip : ℕ} (h : decodeFrom position skip bs = .ok t) :
    encode t = bs.drop skip := by
  induction bs generalizing position skip t with
  | nil =>
    cases skip <;> cases h <;> rfl
  | cons b bs ih =>
    cases skip with
    | succ skip => exact ih h
    | zero =>
      rw [decodeFrom] at h
      split at h
      · cases h
      · next c tail hread =>
        cases hrest : decodeFrom (position + 1) tail bs with
        | error m =>
          rw [hrest] at h
          cases h
        | ok u =>
          rw [hrest] at h
          cases h
          rw [encode_cons, encodeChar_of_readChar hread, ih hrest, List.cons_append,
            List.take_append_drop, List.drop_zero]

theorem decodeFrom_append (position : ℕ) (passed bs : List UInt8) :
    decodeFrom position passed.length (passed ++ bs) =
      decodeFrom (position + passed.length) 0 bs := by
  induction passed generalizing position with
  | nil => rfl
  | cons b passed ih =>
    rw [List.length_cons, List.cons_append, decodeFrom, ih, Nat.add_right_comm, Nat.add_assoc]

theorem decodeFrom_encode (position : ℕ) (t : Text) :
    decodeFrom position 0 (encode t) = .ok t := by
  induction t generalizing position with
  | nil => rfl
  | cons c t ih =>
    cases hc : String.utf8EncodeChar c with
    | nil => exact absurd hc (String.utf8EncodeChar_ne_nil)
    | cons b tail =>
      rw [encode_cons, hc, List.cons_append, decodeFrom, readChar_of_encodeChar hc]
      simp only [decodeFrom_append, ih, Except.map]

/-- **Decoding undoes encoding**, and nothing else can be decoded. -/
theorem decode_eq_ok_iff : decode bs = .ok t ↔ bs = encode t := by
  constructor
  · intro h
    rw [encode_of_decodeFrom h, List.drop_zero]
  · rintro rfl
    exact decodeFrom_encode 0 t

end Pageloom.Utf8
