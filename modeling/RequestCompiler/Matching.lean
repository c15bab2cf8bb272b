import RequestCompiler.Matching.Triggers
import RequestCompiler.Registry
import RequestCompiler.Text.Blank
import RequestCompiler.Text.Lower

/-!
# Matching a request against the bundles

Every bundle is scored on the lower-cased request: two points for each of its keywords that
occurs in it, also inside a longer word, and one point each for a trigger of its domain and
of its task. The highest score wins, the bundle registered first among equals. A match is
ambiguous when another bundle scored within one point of the winner; that lowers the adjusted
score by one and never changes the selection.
-/

namespace RequestCompiler

/-- The score of one bundle, and what it came from. -/
structure BundleScore where
  bundleId : Text
  score : Nat
  keywordHits : List Text
  domainBonus : Bool
  taskBonus : Bool
deriving DecidableEq, Repr

/-- The outcome of a match. Without a bundle nothing scored above zero. -/
structure Match where
  bundle : Option Bundle
  topScore : Nat
  secondScore : Option Nat
  ambiguous : Bool
  adjustedScore : Nat
  keywordHits : List Text
  domainBonus : Bool
  taskBonus : Bool
  scores : List BundleScore

namespace Matching

def keywordPoints : Nat := 2

/-- The greatest distance between the two best scores that counts as ambiguous. -/
def ambiguityGap : Nat := 1

def ambiguityPenalty : Nat := 1

/-- The form in which requests and keywords are compared. -/
def normalize (t : Text) : Text := t.lower

/-- The score of a bundle on a normalized text; a blank text scores nothing. -/
def scoreBundle (b : Bundle) (text : Text) : BundleScore :=
  if text.isBlankText then ⟨b.id, 0, [], false, false⟩
  else
    let hits := b.keywords.filter fun k => Text.contains k.lower text
    let domain := triggers domainTriggers b.domain text
    let task := triggers taskTriggers b.task text
    ⟨b.id, keywordPoints * hits.length + domain.toNat + task.toNat, hits, domain, task⟩

/-- The scores of all bundles on a request, in the order of registration. -/
def scoreBundles (r : Registry) (text : Text) : List BundleScore :=
  r.bundles.map fun b => scoreBundle b (normalize text)

/-- The first of the highest scores above zero. -/
def best? (scores : List BundleScore) : Option BundleScore :=
  scores.foldl (fun best s =>
    if s.score = 0 then best
    else
      match best with
      | none => some s
      | some b => if b.score < s.score then some s else some b) none

/-- The scores above zero, highest first. -/
def positiveScores (scores : List BundleScore) : List Nat :=
  ((scores.map (·.score)).filter (0 < ·)).mergeSort fun a b => b ≤ a

/-- The match that a list of scores makes. -/
def ofScores (r : Registry) (scores : List BundleScore) : Match :=
  match best? scores with
  | none => ⟨none, 0, none, false, 0, [], false, false, scores⟩
  | some best =>
    let second := (positiveScores scores)[1]?
    let ambiguous := second.any fun s => best.score - s ≤ ambiguityGap
    ⟨r.bundle? best.bundleId, best.score, second, ambiguous,
      if ambiguous then best.score - ambiguityPenalty else best.score,
      best.keywordHits, best.domainBonus, best.taskBonus, scores⟩

/-- Matches a request against a registry. -/
def run (r : Registry) (text : Text) : Match := ofScores r (scoreBundles r text)

end Matching

namespace Match

/-- One line on why a bundle was selected. -/
def explanation (m : Match) : Text :=
  match m.bundle with
  | none => "No bundle matched"
  | some b =>
    let hits : Text := if m.keywordHits.isEmpty then "n/a" else Text.join ", " m.keywordHits
    let domain : Text := if m.domainBonus then b.domain else "none"
    let task : Text := if m.taskBonus then b.task else "none"
    let penalty : Text := if m.ambiguous then "1" else "0"
    "Matched bundle '" ++ b.id ++ "' via keywords: " ++ hits ++ "; domain bonus: " ++ domain
      ++ "; task bonus: " ++ task ++ "; ambiguity penalty: " ++ penalty

end Match

end RequestCompiler
