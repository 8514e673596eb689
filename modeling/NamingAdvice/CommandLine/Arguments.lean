import NamingAdvice.CommandLine.Options
import NamingAdvice.CommandLine.Usage

/-! The arguments of a command line, taken from left to right. What comes after an unknown
option is unknown too, unless it is an option that is known; the version and an option that
lacks its value end the matter at once.
-/

namespace NamingAdvice.CommandLine

/-- What a user asks for. -/
inductive Request where
  | notice (notice : Notice)
  | check (file : Text) (options : Options)
deriving DecidableEq, Repr

/-- What one argument is, whatever stands around it. -/
inductive Argument where
  | version
  | json
  | pretty (value : Option Text)
  | out (value : Option Text)
  | unknownOption
  | operand
deriving DecidableEq, Repr

/-- Something that begins with a dash and is more than that. -/
def looksLikeOption (given : Text) : Bool :=
  given.head? == some 0x2D && 1 < given.length

/-- What follows a given beginning, if a text has it. -/
def after? (start given : Text) : Option Text :=
  if given.take start.length == start then some (given.drop start.length) else none

/-- Sorts an argument. A short option takes the rest of its argument as a value, a long one
what follows an equals sign.
-/
def Argument.ofText (given : Text) : Argument :=
  if given == text "-V" || given == text "--version" then .version
  else if given == text "--json" then .json
  else if given == text "--pretty" then .pretty none
  else if given == text "-o" || given == text "--out" then .out none
  else if (after? (text "-V") given).isSome then .version
  else
    match after? (text "-o") given, after? (text "--pretty=") given,
        after? (text "--out=") given with
    | some value, _, _ => .out (some value)
    | none, some value, _ => .pretty (some value)
    | none, none, some value => .out (some value)
    | none, none, none => if looksLikeOption given then .unknownOption else .operand

/-- What has been gathered from the arguments so far. -/
structure Gathered where
  options : Options
  operands : List Text
  unknown : List Text

namespace Gathered

def empty : Gathered := ⟨.plain, [], []⟩

/-- Adds arguments that are no options. -/
def addOperands (gathered : Gathered) (given : List Text) : Gathered :=
  if gathered.unknown.isEmpty then { gathered with operands := gathered.operands ++ given }
  else { gathered with unknown := gathered.unknown ++ given }

def addUnknown (gathered : Gathered) (given : Text) : Gathered :=
  { gathered with unknown := gathered.unknown ++ [given] }

def setJson (gathered : Gathered) : Gathered :=
  { gathered with options := { gathered.options with json := true } }

def setPretty (gathered : Gathered) (pretty : Pretty) : Gathered :=
  { gathered with options := { gathered.options with pretty := some pretty } }

def setOut (gathered : Gathered) (out : Text) : Gathered :=
  { gathered with options := { gathered.options with out := some out } }

/-- Adds all that follows a double dash, which itself counts among unknown arguments only. -/
def addRest (gathered : Gathered) (rest : List Text) : Gathered :=
  if gathered.unknown.isEmpty then gathered.addOperands rest
  else gathered.addOperands (text "--" :: rest)

/-- What the arguments come to when all are taken. Help is given before any complaint, and
the first operand is the file.
-/
def request (gathered : Gathered) : Request :=
  if gathered.unknown.contains (text "-h") || gathered.unknown.contains (text "--help") then
    .notice .help
  else
    match gathered.unknown, gathered.operands with
    | option :: _, _ => .notice (.complaint (.unknownOption option))
    | [], file :: _ => .check file gathered.options
    | [], [] => .notice (.complaint .missingFile)

end Gathered

/-- Takes arguments after those that are gathered already. A value of its own may follow a
layout option, and has to follow an output option.
-/
def interpretFrom (gathered : Gathered) : List Text → Request
  | [] => gathered.request
  | given :: rest =>
      if given == text "--" then (gathered.addRest rest).request
      else
        match Argument.ofText given, rest with
        | .version, _ => .notice .version
        | .json, rest => interpretFrom gathered.setJson rest
        | .pretty (some value), rest => interpretFrom (gathered.setPretty (.width value)) rest
        | .pretty none, value :: rest =>
            if looksLikeOption value then
              interpretFrom (gathered.setPretty .bare) (value :: rest)
            else interpretFrom (gathered.setPretty (.width value)) rest
        | .pretty none, [] => interpretFrom (gathered.setPretty .bare) []
        | .out (some value), rest => interpretFrom (gathered.setOut value) rest
        | .out none, value :: rest => interpretFrom (gathered.setOut value) rest
        | .out none, [] => .notice (.complaint .missingOut)
        | .unknownOption, rest => interpretFrom (gathered.addUnknown given) rest
        | .operand, rest => interpretFrom (gathered.addOperands [given]) rest

/-- What a list of arguments asks for. -/
def interpret (arguments : List Text) : Request :=
  interpretFrom .empty arguments

end NamingAdvice.CommandLine
