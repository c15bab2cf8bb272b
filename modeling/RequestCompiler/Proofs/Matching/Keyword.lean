import RequestCompiler.Proofs.Matching.Ranking
import RequestCompiler.Proofs.Text.Sigma

/-!
# Keywords that stand in a request

A request is put into lower case as a whole, and a keyword by itself. A keyword that stands in the request
is therefore found if its capital sigmas end words there as they do in the keyword alone
(`found_iff_fixedSigmas`), and it is not always found (`not_always_found`): a keyword that ends in a capital
sigma is written with a final small sigma, and within a longer word the request is not.
-/

namespace RequestCompiler.Matching

open Registry Text

/-- The keyword is found in the request in which it stands between `x` and `y`. -/
def Found (b : Bundle) (x k y : Text) : Prop := k ∈ (scoreBundle b (normalize (x ++ k ++ y))).keywordHits

section Accepted

variable {document : Json} {r : Registry} (accepted : ofDocument document = .ok r)
  {b : Bundle} (registered : b ∈ r.bundles) {k : Text} (keyword : k ∈ b.keywords)
include accepted registered keyword

theorem found_iff_occurs (x y : Text) : Found b x k y ↔ k.lower <:+: (x ++ (k ++ y)).lower := by
  have settled := (settled_of_accepted accepted).bundles b registered
  have hits := keywordHits_scoreOn (x ++ (k ++ y)) settled
  rw [scoreOn] at hits
  rw [Found, List.append_assoc, hits, List.mem_filter, decide_eq_true_iff]
  exact and_iff_right keyword

/-- Between texts that make no surrogate pair with it, a keyword is found if no sigma of it is disturbed.
It is found between all of them exactly if its sigmas are fixed; if it has no lone surrogate, these
are all texts there are. -/
theorem found_iff_fixedSigmas :
    (∀ x y, Apart x k → Apart k y → Undisturbed x k y → Found b x k y) ∧
      ((∀ x y, Apart x k → Apart k y → Found b x k y) ↔ FixedSigmas k) ∧
      (k.wellFormed = true → ((∀ x y, Found b x k y) ↔ FixedSigmas k)) := by
  simp only [found_iff_occurs accepted registered keyword]
  refine ⟨fun x y left right => infix_lower_of_undisturbed left right, infix_lower_iff, fun whole => ?_⟩
  have apart := apart_of_wellFormed whole
  rw [← infix_lower_iff]
  exact ⟨fun found x y _ _ => found x y, fun found x y => found x y (apart x y).1 (apart x y).2⟩

end Accepted

/-- Bundles for a word that ends in a capital sigma and for one without a sigma. -/
def streetBundles : List (Text × List Text) := [("streets", ["ΟΔΟΣ"]), ("review", ["Code"])]

theorem found_iff_fixedSigmas_street :
    ofDocument (wordedDocument streetBundles) = .ok (worded streetBundles) ∧
      Found ⟨"streets", "streets", [], [], ["ΟΔΟΣ"], .arr []⟩ "Η " "ΟΔΟΣ" " 5" ∧
      ∀ x y, Found ⟨"review", "review", [], [], ["Code"], .arr []⟩ x "Code" y := by
  have accepted : ofDocument (wordedDocument streetBundles) = .ok (worded streetBundles) := rfl
  have street := found_iff_fixedSigmas accepted List.mem_cons_self List.mem_cons_self
  have code := found_iff_fixedSigmas accepted (List.mem_cons_of_mem _ List.mem_cons_self) List.mem_cons_self
  have apart := apart_of_wellFormed (t := "ΟΔΟΣ") (by decide +kernel) "Η " " 5"
  have undisturbed : Undisturbed "Η " "ΟΔΟΣ" " 5" := lowerWithin_eq_lower_iff.1 (by decide +kernel)
  have fixed : FixedSigmas "Code" := fixedSigmas_of_not_mem (by decide +kernel)
  exact ⟨accepted, street.1 _ _ apart.1 apart.2 undisturbed, (code.2.2 (by decide +kernel)).2 fixed⟩

/-- Within a longer word, the word that ends in a capital sigma is not found. -/
theorem not_always_found :
    ¬∀ document r b k x y, ofDocument document = .ok r → b ∈ r.bundles → k ∈ b.keywords →
      Found b x k y := by
  intro always
  have accepted : ofDocument (wordedDocument streetBundles) = .ok (worded streetBundles) := rfl
  have found := always _ _ _ "ΟΔΟΣ" [] "Α" accepted List.mem_cons_self List.mem_cons_self
  exact absurd found (by unfold Found; decide +kernel)

end RequestCompiler.Matching
