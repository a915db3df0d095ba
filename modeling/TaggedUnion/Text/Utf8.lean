import TaggedUnion.Text.Quoted

/-!
# UTF-8

Text is kept in files as UTF-8.  Encoding never fails, since no character of a text
is a surrogate.  Decoding refuses the first sequence of bytes
that encodes no character, and tells where it stands, which of its bytes could
have been part of a character, and what is wrong with it.
-/

namespace TaggedUnion

/-- The content of a file. -/
abbrev Bytes := List UInt8

namespace Utf8

/-- The bytes of a character. -/
def encodeChar (character : Char) : Bytes :=
  let code := character.toNat
  if code < 0x80 then
    [code.toUInt8]
  else if code < 0x800 then
    [(0xC0 + code / 64).toUInt8, (0x80 + code % 64).toUInt8]
  else if code < 0x10000 then
    [(0xE0 + code / 4096).toUInt8, (0x80 + code / 64 % 64).toUInt8, (0x80 + code % 64).toUInt8]
  else
    [(0xF0 + code / 262144).toUInt8, (0x80 + code / 4096 % 64).toUInt8,
      (0x80 + code / 64 % 64).toUInt8, (0x80 + code % 64).toUInt8]

/-- The bytes of a text. -/
def encode (text : Text) : Bytes :=
  text.flatMap encodeChar

/-- The number of bytes of a text. -/
def size (text : Text) : Nat :=
  (encode text).length

/-- What is wrong with a sequence of bytes. -/
inductive Reason where
  /-- No character starts with this byte. -/
  | invalidStart
  /-- The next byte does not go on with the character. -/
  | invalidContinuation
  /-- The input ends inside a character. -/
  | unexpectedEnd
deriving DecidableEq, Repr

/-- The reason in words. -/
def Reason.message : Reason → Text
  | invalidStart => "invalid start byte"
  | invalidContinuation => "invalid continuation byte"
  | unexpectedEnd => "unexpected end of data"

/-- A sequence of bytes that encodes no character. -/
structure Fault where
  position : Nat
  /-- The bytes that could have been part of a character; there is at least one. -/
  bytes : Bytes
  reason : Reason
deriving DecidableEq, Repr

/-- The fault in words. -/
def Fault.message (fault : Fault) : Text :=
  match fault.bytes with
  | [byte] =>
      .cat
        ["'utf-8' codec can't decode byte 0x", Text.hexCode 2 byte.toNat, " in position ",
          .ofNat fault.position, ": ", fault.reason.message]
  | bytes =>
      .cat
        ["'utf-8' codec can't decode bytes in position ", .ofNat fault.position, "-",
          .ofNat (fault.position + bytes.length - 1), ": ", fault.reason.message]

/-- Whether a byte lies in a range. -/
def isWithin (first last : Nat) (byte : UInt8) : Bool :=
  first ≤ byte.toNat && byte.toNat ≤ last

/-- Whether a byte can be one after the second of a character. -/
def isContinuation (byte : UInt8) : Bool :=
  isWithin 0x80 0xBF byte

/--
Whether a byte can follow the given first byte.  The narrower ranges keep out
codes that have a shorter form, surrogates, and codes beyond U+10FFFF.
-/
def canFollow (first second : UInt8) : Bool :=
  match first.toNat with
  | 0xE0 => isWithin 0xA0 0xBF second
  | 0xED => isWithin 0x80 0x9F second
  | 0xF0 => isWithin 0x90 0xBF second
  | 0xF4 => isWithin 0x80 0x8F second
  | _ => isContinuation second

/-- The six bits that a byte after the first carries. -/
def payload (byte : UInt8) : Nat :=
  byte.toNat % 64

/-- Decode bytes, the first of which has the given position in the input. -/
def decodeFrom (position : Nat) : Bytes → Except Fault Text
  | [] => .ok []
  | first :: rest =>
      let lead := first.toNat
      if lead < 0x80 then do
        let text ← decodeFrom (position + 1) rest
        .ok (Char.ofNat lead :: text)
      else if lead < 0xC2 ∨ 0xF4 < lead then
        .error ⟨position, [first], .invalidStart⟩
      else
        match rest with
        | [] => .error ⟨position, [first], .unexpectedEnd⟩
        | second :: rest =>
            if !canFollow first second then
              .error ⟨position, [first], .invalidContinuation⟩
            else if lead < 0xE0 then do
              let text ← decodeFrom (position + 2) rest
              .ok (Char.ofNat ((lead - 0xC0) * 64 + payload second) :: text)
            else
              match rest with
              | [] => .error ⟨position, [first, second], .unexpectedEnd⟩
              | third :: rest =>
                  if !isContinuation third then
                    .error ⟨position, [first, second], .invalidContinuation⟩
                  else if lead < 0xF0 then do
                    let text ← decodeFrom (position + 3) rest
                    let code := ((lead - 0xE0) * 64 + payload second) * 64 + payload third
                    .ok (Char.ofNat code :: text)
                  else
                    match rest with
                    | [] => .error ⟨position, [first, second, third], .unexpectedEnd⟩
                    | fourth :: rest =>
                        if !isContinuation fourth then
                          .error ⟨position, [first, second, third], .invalidContinuation⟩
                        else do
                          let text ← decodeFrom (position + 4) rest
                          let code :=
                            (((lead - 0xF0) * 64 + payload second) * 64 + payload third) * 64 +
                              payload fourth
                          .ok (Char.ofNat code :: text)

/-- The text that the bytes encode. -/
def decode (bytes : Bytes) : Except Fault Text :=
  decodeFrom 0 bytes

end Utf8

end TaggedUnion
