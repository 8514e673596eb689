import NamingAdvice.Number.Literal

/-! What a user may ask for besides the file: a JSON report instead of lines, its layout, and
a file to write it to.
-/

namespace NamingAdvice.CommandLine

/-- The layout asked for, with or without a number. -/
inductive Pretty where
  | bare
  | width (given : Text)
deriving DecidableEq, Repr

structure Options where
  json : Bool
  pretty : Option Pretty
  out : Option Text
deriving DecidableEq, Repr

/-- Nothing asked for. -/
def Options.plain : Options := ⟨false, none, none⟩

/-- The indent where no usable number is given. -/
def defaultIndent : Nat := 2

/-- The widest indent. -/
def widestIndent : Nat := 10

/-- The whole part of the number that a text stands for, if that is neither negative nor
infinite. A negative number too small to tell from zero is zero.
-/
def spacesOf? (given : Text) : Option Nat :=
  match Literal.read? given with
  | some (.decimal value) =>
      match value.magnitude with
      | .infinite => none
      | .finite significand exponent =>
          if value.mantissa < 0 && significand != 0 then none
          else Magnitude.floor? (.finite significand exponent)
  | _ => none

namespace Options

/-- The number of spaces for each level of a JSON report. -/
def indent (options : Options) : Nat :=
  match options.pretty with
  | some (.width given) => min widestIndent ((spacesOf? given).getD defaultIndent)
  | _ => defaultIndent

/-- The file to write a report to; an empty name is none. -/
def target? (options : Options) : Option Text :=
  options.out.filter (· != [])

end Options

end NamingAdvice.CommandLine
