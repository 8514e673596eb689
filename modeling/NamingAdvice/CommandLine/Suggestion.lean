import NamingAdvice.Text

/-! Suggestions for a misspelt option. Two words are as far apart as the fewest insertions,
deletions, replacements and swaps of neighbours that turn one into the other; the nearest
candidates are suggested if they are near enough.
-/

namespace NamingAdvice.CommandLine

/-- The fewest edits between two words, where no unit is edited again after a swap. -/
def editDistance : Text → Text → Nat
  | [], target => target.length
  | source, [] => source.length
  | first :: source, head :: target =>
      let edited := min
        (min (editDistance source (head :: target) + 1) (editDistance (first :: source) target + 1))
        (editDistance source target + if first == head then 0 else 1)
      match source, target with
      | second :: source, next :: target =>
          if first == next && second == head then min edited (editDistance source target + 1)
          else edited
      | _, _ => edited
termination_by source target => source.length + target.length

/-- The greatest distance at which a word is suggested. -/
def farthest : Nat := 3

/-- The distance of two words; words of very different length share nothing. -/
def wordDistance (source target : Text) : Nat :=
  if source.length - target.length > farthest || target.length - source.length > farthest then
    max source.length target.length
  else editDistance source target

/-- Whether more than two fifths of the longer word are left alone. -/
def isSimilar (source target : Text) : Bool :=
  let longer := max source.length target.length
  2 * longer < 5 * (longer - wordDistance source target)

/-- The nearest of the candidates at a distance up to `best`, in their order. -/
def nearest (word : Text) (best : Nat) (found : List Text) : List Text → List Text
  | [] => found
  | candidate :: rest =>
      let distance := wordDistance word candidate
      if !isSimilar word candidate || best < distance then nearest word best found rest
      else if distance < best then nearest word distance [candidate] rest
      else nearest word best (found ++ [candidate]) rest

/-- The long options, in alphabetical order. -/
def longOptions : List Text :=
  [text "help", text "json", text "out", text "pretty", text "version"]

/-- The hint that follows an unknown long option. -/
def suggestion (word : Text) : Text :=
  match (nearest word farthest [] longOptions).map (text "--" ++ ·) with
  | [] => []
  | [option] => text "\n(Did you mean " ++ option ++ text "?)"
  | several => text "\n(Did you mean one of " ++ Text.join (text ", ") several ++ text "?)"

end NamingAdvice.CommandLine
