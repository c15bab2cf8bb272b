import RequestCompiler.Text
import RequestCompiler.Text.CaseTable

/-!
# Lower case

Matching ignores case by comparing lower-cased texts. The mapping is the full, locale
independent one: each capital letter becomes its small letter, U+0130 becomes `i` and a
combining dot, and a capital sigma that ends a word becomes the final small sigma.
-/

namespace RequestCompiler.Text

/-- The point lies in one of the ranges. -/
def inRanges (ranges : List (Nat × Nat)) (p : Nat) : Bool :=
  ranges.any fun r => r.1 ≤ p && p ≤ r.2

/-- A letter with case, for the rule of the final sigma. -/
def isCased (p : Nat) : Bool := inRanges casedRanges p

/-- A point that the rule of the final sigma looks through. -/
def isCaseIgnorable (p : Nat) : Bool := inRanges caseIgnorableRanges p

/-- The small letter of a capital letter; every other point is its own. -/
def smallPoint (p : Nat) : Nat :=
  if p < 0x80 then (if 0x41 ≤ p ∧ p ≤ 0x5A then p + 0x20 else p)
  else
    match capitalRuns.find? fun r => r.1 ≤ p && p ≤ r.2.1 && (p - r.1) % r.2.2.1 == 0 with
    | some r => ((p : Int) + r.2.2.2).toNat
    | none => p

/-- The nearest point that is not looked through is a letter with case. -/
def startsCased (ps : List Nat) : Bool :=
  match ps.dropWhile isCaseIgnorable with
  | [] => false
  | p :: _ => isCased p

/-- The lower-case points of one point, between the points before it (nearest first) and the
points after it. -/
def lowerPoint (before : List Nat) (p : Nat) (after : List Nat) : List Nat :=
  if p = 0x130 then [0x69, 0x307]
  else if p = 0x3A3 then [if startsCased before && !startsCased after then 0x3C2 else 0x3C3]
  else [smallPoint p]

/-- The lower-case points of a text, after the points `before` (nearest first). -/
def lowerPoints (before : List Nat) : List Nat → List Nat
  | [] => []
  | p :: r => lowerPoint before p r ++ lowerPoints (p :: before) r

/-- The text in lower case. -/
def lower (t : Text) : Text := (lowerPoints [] t.points).flatMap ofPoint

end RequestCompiler.Text
