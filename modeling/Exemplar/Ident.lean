import Exemplar.Text.Blank
import Exemplar.Text.Case
import Exemplar.Text.Category

/-!
# Identifiers

The identifier that a key is declared under: its words, each with a capital first character, put
together, with a few acronyms in capitals.  Source: the module `naming`.
-/

namespace Exemplar.Ident

/-- The words of a text: its longest stretches of letters and numbers, in order.  Source: the split
by `NOT_WORD` in `normalize`. -/
def words : List Char → List (List Char)
  | [] => []
  | c :: cs =>
    if Text.isWordChar c then
      match words cs with
      | w :: ws => if cs.head?.any Text.isWordChar then (c :: w) :: ws else [c] :: w :: ws
      | [] => [[c]]
    else words cs

/-- Replaces a pattern, from left to right and without overlap, after passing over the characters
that belong to the last match. -/
def replaceFrom (pattern replacement : List Char) : (pass : Nat) → List Char → List Char
  | _, [] => []
  | pass + 1, _ :: cs => replaceFrom pattern replacement pass cs
  | 0, c :: cs =>
    if pattern.isPrefixOf (c :: cs) then
      replacement ++ replaceFrom pattern replacement (pattern.length - 1) cs
    else c :: replaceFrom pattern replacement 0 cs

/-- Replaces every occurrence of a pattern. -/
def replaceAll (pattern replacement : List Char) (cs : List Char) : List Char :=
  replaceFrom pattern replacement 0 cs

/-- The acronyms that are written in capitals, wherever they stand.  Source: `ACRONYMS`. -/
def acronyms : List (List Char × List Char) :=
  [(['U', 'r', 'l'], ['U', 'R', 'L']),
   (['U', 'r', 'i'], ['U', 'R', 'I']),
   (['I', 'd'], ['I', 'D'])]

/-- Writes the acronyms in capitals, one after the other.  Source: `normalize`, its loop. -/
def capitalizeAcronyms (cs : List Char) : List Char :=
  acronyms.foldl (fun cs (plain, capitals) => replaceAll plain capitals cs) cs

/-- Whether an identifier could begin the way the text does.  Source: `STARTS_LIKE_IDENT`. -/
def beginsWell (cs : List Char) : Bool :=
  cs.head?.any fun c => Text.isLetter c || c == '_'

/-- The characters of the identifier for a key.  A key that begins neither with a letter nor with an
underscore gets an underscore in front.  Source: `normalize`. -/
def ofKeyChars (cs : List Char) : List Char :=
  let joined := capitalizeAcronyms ((words cs).flatMap Text.upperFirst)
  if beginsWell cs then joined else '_' :: joined

/-- The identifier for a key.  Source: `normalize`. -/
def ofKey (key : String) : String :=
  String.ofList (ofKeyChars key.toList)

/-- The identifier with its first character in lower case.  Source: `lower_first`. -/
def lowerFirst (ident : String) : String :=
  String.ofList (Text.lowerFirst ident.toList)

/-- The name of the root declaration when none is asked for.  Source: `DEFAULT_ROOT_NAME`. -/
def defaultRoot : String := "Config"

/-- The name of the root declaration: the identifier for the name asked for, blanks around it
dropped, or the default when nothing is left.  Source: `root_name`. -/
def root (requested : Option String) : String :=
  match requested with
  | none => defaultRoot
  | some name =>
    let trimmed := Text.trim name.toList
    if trimmed = [] then defaultRoot else String.ofList (ofKeyChars trimmed)

end Exemplar.Ident
