import Mathlib.Tactic.SplitIfs
import TaggedUnion.Text.Utf8

/-!
# Decoding undoes encoding

The bytes of a character are accepted one after the other, and decoding gives
back the character and goes on with what follows.  The ranges that a second byte
must keep to are those that the codes of characters lead to: a code is encoded in
the shortest form, is no surrogate, and does not lie beyond U+10FFFF.

So the bytes of a text decode to the text, whatever characters it has.
-/

namespace TaggedUnion.Utf8

/-! ## Bytes -/

theorem toNat_toUInt8
    {code : Nat}
    (isByte : code < 256) :
    code.toUInt8.toNat = code :=
  UInt8.toNat_ofNat_of_lt isByte

theorem isWithin_iff
    {first last : Nat}
    {byte : UInt8} :
    isWithin first last byte = true ↔ first ≤ byte.toNat ∧ byte.toNat ≤ last := by
  simp [isWithin]

/-- A byte after the first, made of six bits, goes on with a character and carries them. -/
theorem isContinuation_and_payload (bits : Nat) :
    isContinuation (0x80 + bits % 64).toUInt8 = true ∧
      payload (0x80 + bits % 64).toUInt8 = bits % 64 := by
  have held : (0x80 + bits % 64).toUInt8.toNat = 0x80 + bits % 64 :=
    toNat_toUInt8 (by omega)
  constructor
  · rw [isContinuation, isWithin_iff, held]
    omega
  · rw [payload, held]
    omega

/-- A byte that goes on with a character can follow a first byte unless its range is narrower. -/
theorem canFollow_of_isContinuation
    {first second : UInt8}
    (continues : isContinuation second = true)
    (noShorterForm :
      (first.toNat = 0xE0 → 0xA0 ≤ second.toNat) ∧ (first.toNat = 0xF0 → 0x90 ≤ second.toNat))
    (noSurrogate : first.toNat = 0xED → second.toNat ≤ 0x9F)
    (notBeyond : first.toNat = 0xF4 → second.toNat ≤ 0x8F) :
    canFollow first second = true := by
  rcases isWithin_iff.mp continues with ⟨above, below⟩
  unfold canFollow
  split <;> simp_all [isWithin_iff]

/-! ## Sequences that decode to a character -/

section Sequences

variable (position : Nat) (rest : Bytes) {first second third fourth : UInt8}

theorem decodeFrom_one
    (lead : first.toNat < 0x80) :
    decodeFrom position (first :: rest) =
      (decodeFrom (position + 1) rest).map (Char.ofNat first.toNat :: ·) := by
  rw [decodeFrom.eq_def]
  simp only [if_pos lead]
  rfl

theorem decodeFrom_two
    (lead : 0xC2 ≤ first.toNat ∧ first.toNat < 0xE0)
    (follows : canFollow first second = true) :
    decodeFrom position (first :: second :: rest) =
      (decodeFrom (position + 2) rest).map
        (Char.ofNat ((first.toNat - 0xC0) * 64 + payload second) :: ·) := by
  rw [decodeFrom.eq_def]
  simp only [if_neg (show ¬ first.toNat < 0x80 by omega),
    if_neg (show ¬ (first.toNat < 0xC2 ∨ 0xF4 < first.toNat) by omega), follows, lead.2,
    Bool.not_true, Bool.false_eq_true, if_true, if_false]
  rfl

theorem decodeFrom_three
    (lead : 0xE0 ≤ first.toNat ∧ first.toNat < 0xF0)
    (follows : canFollow first second = true)
    (continues : isContinuation third = true) :
    decodeFrom position (first :: second :: third :: rest) =
      (decodeFrom (position + 3) rest).map
        (Char.ofNat (((first.toNat - 0xE0) * 64 + payload second) * 64 + payload third) :: ·) := by
  rw [decodeFrom.eq_def]
  simp only [if_neg (show ¬ first.toNat < 0x80 by omega),
    if_neg (show ¬ (first.toNat < 0xC2 ∨ 0xF4 < first.toNat) by omega),
    if_neg (show ¬ first.toNat < 0xE0 by omega), follows, continues, lead.2,
    Bool.not_true, Bool.false_eq_true, if_true, if_false]
  rfl

theorem decodeFrom_four
    (lead : 0xF0 ≤ first.toNat ∧ first.toNat ≤ 0xF4)
    (follows : canFollow first second = true)
    (continues : isContinuation third = true)
    (continuesAgain : isContinuation fourth = true) :
    decodeFrom position (first :: second :: third :: fourth :: rest) =
      (decodeFrom (position + 4) rest).map
        (Char.ofNat
          ((((first.toNat - 0xF0) * 64 + payload second) * 64 + payload third) * 64 +
            payload fourth) :: ·) := by
  rw [decodeFrom.eq_def]
  simp only [if_neg (show ¬ first.toNat < 0x80 by omega),
    if_neg (show ¬ (first.toNat < 0xC2 ∨ 0xF4 < first.toNat) by omega),
    if_neg (show ¬ first.toNat < 0xE0 by omega), if_neg (show ¬ first.toNat < 0xF0 by omega),
    follows, continues, continuesAgain, Bool.not_true, Bool.false_eq_true, if_false]
  rfl

end Sequences

/-! ## Texts -/

/-- The bytes of a character decode to it, and decoding goes on after them. -/
theorem decodeFrom_encodeChar
    (position : Nat)
    (character : Char)
    (rest : Bytes) :
    decodeFrom position (encodeChar character ++ rest) =
      (decodeFrom (position + (encodeChar character).length) rest).map (character :: ·) := by
  have valid :
      character.toNat < 0xD800 ∨ 0xDFFF < character.toNat ∧ character.toNat < 0x110000 :=
    character.valid
  have back : Char.ofNat character.toNat = character := Char.ofNat_toNat character
  unfold encodeChar
  dsimp only
  generalize character.toNat = code at valid back ⊢
  subst back
  -- the six bits at the end of the code, those before them, and those before these
  rcases isContinuation_and_payload code with ⟨lowContinues, lowBits⟩
  rcases isContinuation_and_payload (code / 64) with ⟨middleContinues, middleBits⟩
  rcases isContinuation_and_payload (code / 4096) with ⟨highContinues, highBits⟩
  split_ifs with one two three
  · have lead : code.toUInt8.toNat = code := toNat_toUInt8 (by omega)
    have decoded := decodeFrom_one position rest (lead.symm ▸ one)
    rwa [lead] at decoded
  · have lead : (0xC0 + code / 64).toUInt8.toNat = 0xC0 + code / 64 := toNat_toUInt8 (by omega)
    have follows : canFollow (0xC0 + code / 64).toUInt8 (0x80 + code % 64).toUInt8 = true := by
      apply canFollow_of_isContinuation lowContinues <;> omega
    have decoded := decodeFrom_two position rest (by omega) follows
    have joined : (0xC0 + code / 64 - 0xC0) * 64 + code % 64 = code := by omega
    rwa [lead, lowBits, joined] at decoded
  · have lead : (0xE0 + code / 4096).toUInt8.toNat = 0xE0 + code / 4096 :=
      toNat_toUInt8 (by omega)
    have second : (0x80 + code / 64 % 64).toUInt8.toNat = 0x80 + code / 64 % 64 :=
      toNat_toUInt8 (by omega)
    have follows :
        canFollow (0xE0 + code / 4096).toUInt8 (0x80 + code / 64 % 64).toUInt8 = true := by
      apply canFollow_of_isContinuation middleContinues <;> omega
    have decoded := decodeFrom_three position rest (by omega) follows lowContinues
    have joined :
        ((0xE0 + code / 4096 - 0xE0) * 64 + code / 64 % 64) * 64 + code % 64 = code := by
      omega
    rwa [lead, middleBits, lowBits, joined] at decoded
  · have lead : (0xF0 + code / 262144).toUInt8.toNat = 0xF0 + code / 262144 :=
      toNat_toUInt8 (by omega)
    have second : (0x80 + code / 4096 % 64).toUInt8.toNat = 0x80 + code / 4096 % 64 :=
      toNat_toUInt8 (by omega)
    have follows :
        canFollow (0xF0 + code / 262144).toUInt8 (0x80 + code / 4096 % 64).toUInt8 = true := by
      apply canFollow_of_isContinuation highContinues <;> omega
    have decoded := decodeFrom_four position rest (by omega) follows middleContinues lowContinues
    have joined :
        (((0xF0 + code / 262144 - 0xF0) * 64 + code / 4096 % 64) * 64 + code / 64 % 64) * 64 +
            code % 64 =
          code := by
      omega
    rwa [lead, highBits, middleBits, lowBits, joined] at decoded

theorem decodeFrom_encode
    (position : Nat)
    (text : Text) :
    decodeFrom position (encode text) = .ok text := by
  induction text generalizing position with
  | nil => rfl
  | cons character rest ih =>
      have onward : decodeFrom (position + (encodeChar character).length)
          (rest.flatMap encodeChar) = .ok rest :=
        ih _
      rw [encode, List.flatMap_cons, decodeFrom_encodeChar, onward]
      rfl

/-- The bytes of a text decode to the text. -/
theorem decode_encode (text : Text) : decode (encode text) = .ok text :=
  decodeFrom_encode 0 text

end TaggedUnion.Utf8
