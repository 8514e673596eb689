import NamingAdvice.Text.CodePoint

/-! Texts as UTF-8. Encoding writes the replacement character for a surrogate without a
partner; decoding writes it once for each longest ill-formed piece that begins a well-formed
sequence, and keeps everything else.
-/

namespace NamingAdvice

/-- A sequence of octets. -/
abbrev Bytes := List UInt8

namespace Utf8

/-- The code point that stands for whatever cannot be coded. -/
def replacement : Nat := 0xFFFD

/-- The octets of a scalar value. -/
def encodeScalar (scalar : Nat) : Bytes :=
  if scalar < 0x80 then [UInt8.ofNat scalar]
  else if scalar < 0x800 then
    [UInt8.ofNat (0xC0 + scalar / 0x40), UInt8.ofNat (0x80 + scalar % 0x40)]
  else if scalar < 0x10000 then
    [UInt8.ofNat (0xE0 + scalar / 0x1000), UInt8.ofNat (0x80 + scalar / 0x40 % 0x40),
      UInt8.ofNat (0x80 + scalar % 0x40)]
  else
    [UInt8.ofNat (0xF0 + scalar / 0x40000), UInt8.ofNat (0x80 + scalar / 0x1000 % 0x40),
      UInt8.ofNat (0x80 + scalar / 0x40 % 0x40), UInt8.ofNat (0x80 + scalar % 0x40)]

/-- The octets of a code point. -/
def encodePoint : CodePoint → Bytes
  | .single unit =>
      if unit.isHighSurrogate || unit.isLowSurrogate then encodeScalar replacement
      else encodeScalar unit.toNat
  | .pair high low => encodeScalar (CodePoint.pair high low).value

/-- The octets of a text. -/
def encode (source : Text) : Bytes :=
  source.codePoints.flatMap encodePoint

/-- A sequence that has begun: the octets still missing, the bounds of the next one, and the
value of those before.
-/
structure Pending where
  missing : Nat
  least : UInt8
  greatest : UInt8
  value : Nat

/-- What the first octet of a sequence makes of it. -/
inductive Lead where
  | complete (scalar : Nat)
  | pending (pending : Pending)
  | invalid

/-- Reads the first octet of a sequence. The bounds of the second octet rule out overlong
forms, surrogates and values beyond the last plane.
-/
def Lead.ofByte (byte : UInt8) : Lead :=
  let value := byte.toNat
  if byte < 0x80 then .complete value
  else if 0xC2 ≤ byte && byte ≤ 0xDF then .pending ⟨1, 0x80, 0xBF, value - 0xC0⟩
  else if byte == 0xE0 then .pending ⟨2, 0xA0, 0xBF, value - 0xE0⟩
  else if byte == 0xED then .pending ⟨2, 0x80, 0x9F, value - 0xE0⟩
  else if 0xE1 ≤ byte && byte ≤ 0xEF then .pending ⟨2, 0x80, 0xBF, value - 0xE0⟩
  else if byte == 0xF0 then .pending ⟨3, 0x90, 0xBF, value - 0xF0⟩
  else if byte == 0xF4 then .pending ⟨3, 0x80, 0x8F, value - 0xF0⟩
  else if 0xF1 ≤ byte && byte ≤ 0xF3 then .pending ⟨3, 0x80, 0xBF, value - 0xF0⟩
  else .invalid

/-- Starts a sequence: the text that is certain by now and what is pending. -/
def openSequence (byte : UInt8) : Text × Option Pending :=
  match Lead.ofByte byte with
  | .complete scalar => (Text.ofScalar scalar, none)
  | .pending pending => ([], some pending)
  | .invalid => (Text.ofScalar replacement, none)

/-- Takes in one octet. An octet that cannot continue a sequence ends it and starts anew. -/
def advance (state : Option Pending) (byte : UInt8) : Text × Option Pending :=
  match state with
  | none => openSequence byte
  | some pending =>
      if pending.least ≤ byte && byte ≤ pending.greatest then
        let value := pending.value * 0x40 + (byte.toNat - 0x80)
        if pending.missing ≤ 1 then (Text.ofScalar value, none)
        else ([], some ⟨pending.missing - 1, 0x80, 0xBF, value⟩)
      else
        let (units, state) := openSequence byte
        (Text.ofScalar replacement ++ units, state)

/-- Decodes octets from a state on. -/
def decodeFrom (state : Option Pending) : Bytes → Text
  | [] => if state.isSome then Text.ofScalar replacement else []
  | byte :: bytes =>
      let (units, state) := advance state byte
      units ++ decodeFrom state bytes

/-- The text of octets. -/
def decode (source : Bytes) : Text :=
  decodeFrom none source

end Utf8

end NamingAdvice
