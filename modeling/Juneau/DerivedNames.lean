import Juneau.PolicyAdmission
import Mathlib.Data.List.DropRight

namespace Juneau

/-- `regexp.ReplaceAllString` of `[^a-z0-9.-]+` by a hyphen; `inRun` is set within a match. -/
def allocationNameSanitizer (inRun : Bool) : List Char → List Char
  | [] => []
  | c :: rest =>
    if c.isLower || c.isDigit || c == '.' || c == '-' then c :: allocationNameSanitizer false rest
    else if inRun then allocationNameSanitizer true rest
    else '-' :: allocationNameSanitizer true rest

def allocationNamePart (part : String) : List Char :=
  let lower := part.toList.map Char.toLower
  let dashed := lower.map fun c => if c = '.' then '-' else c
  let cut := fun c : Char => c == '-' || c == '.'
  ((allocationNameSanitizer false dashed).dropWhile cut).rdropWhile cut

/-- What a claim is named after; the namespace is empty for cluster-scoped owners. -/
structure ClaimTuple where
  poolName : String
  kind : String
  ns : String
  resourceName : String
  attr : String
  deriving DecidableEq, Repr

section Pieces

/-- A text cut at its double hyphens. -/
def cutHyphens : List Char → List (List Char)
  | [] => [[]]
  | '-' :: '-' :: rest => [] :: cutHyphens rest
  | c :: rest =>
    match cutHyphens rest with
    | [] => [[c]]
    | piece :: pieces => (c :: piece) :: pieces

end Pieces

/-- The cleaned parts of a claim's name, without the namespace where that is empty. -/
def ClaimTuple.cleaned (t : ClaimTuple) : List (List Char) :=
  let ns := allocationNamePart t.ns
  [allocationNamePart t.poolName, allocationNamePart t.kind] ++ (if ns = [] then [] else [ns]) ++
    [allocationNamePart t.resourceName, allocationNamePart t.attr]

/-- The cleaned parts, each cut at the double hyphens it holds itself. -/
def ClaimTuple.pieces (t : ClaimTuple) : List (List Char) := t.cleaned.flatMap cutHyphens

end Juneau
