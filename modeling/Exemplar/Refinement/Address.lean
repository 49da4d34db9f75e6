import Exemplar.Text.Digits
import Exemplar.Text.Split

/-!
# Addresses

The texts of internet addresses: four decimal parts, or eight groups of hexadecimal digits with
the shorthand `::` for one or more groups of zeros and with a dotted ending for the last two.
-/

namespace Exemplar.Refinement.Address

/-- Whether a text is a decimal part: up to 255, without leading zeros. -/
def isPart (cs : List Char) : Bool :=
  cs ≠ [] && cs.length ≤ 3 && cs.all Text.isDigit && (cs.head? != some '0' || cs.length == 1) &&
    Text.digitsValue cs ≤ 255

/-- Whether a text is an address of four decimal parts. -/
def isDotted (cs : List Char) : Bool :=
  let parts := Text.split '.' cs
  parts.length == 4 && parts.all isPart

/-- Whether a text is a group: one to four hexadecimal digits. -/
def isGroup (cs : List Char) : Bool :=
  cs ≠ [] && cs.length ≤ 4 && cs.all fun c => (Text.hexValue? c).isSome

/-- The number of groups that a list of texts stands for, if each is a group, or the last one a
dotted address, which stands for two. -/
def groupCount? : List (List Char) → Option Nat
  | [] => some 0
  | [g] => if isGroup g then some 1 else if isDotted g then some 2 else none
  | g :: gs => if isGroup g then (groupCount? gs).map (1 + ·) else none

/-- The texts between colons; nothing at all has none. -/
def groups (cs : List Char) : List (List Char) :=
  if cs = [] then [] else Text.split ':' cs

/-- The parts of a text before and behind the first `::`. -/
def splitGap? : List Char → Option (List Char × List Char)
  | [] => none
  | c :: cs =>
    match c, cs with
    | ':', ':' :: after => some ([], after)
    | _, _ => (splitGap? cs).map fun (before, after) => (c :: before, after)

/-- Whether a text is an address of eight groups. -/
def isGrouped (cs : List Char) : Bool :=
  match splitGap? cs with
  | none => groupCount? (groups cs) == some 8
  | some (before, after) =>
    let head := groups before
    head.all isGroup &&
      match groupCount? (groups after) with
      | some n => head.length + n ≤ 7
      | none => false

end Address

/-- Whether a text is an internet address. -/
def isAddress (cs : List Char) : Bool :=
  Address.isDotted cs || Address.isGrouped cs

end Exemplar.Refinement
