import RequestCompiler.Proofs.Json.Reordered

/-!
# Changes in one place of a value

A change of a value in one field, or in one item, of a larger one: `AtField` and `AtItem`. Whoever reads
a value by its fields sees a change at the key it is made at (`AtField.field?`) and sees nothing of a
field that is added under a key he does not know (`Added.field?`).
-/

namespace RequestCompiler.Json

/-- The value of the key is changed and nothing else. -/
inductive AtField (key : Text) (R : Json → Json → Prop) : Json → Json → Prop
  | mk {before after : List (Text × Json)} {i j : Json} (first : key ∉ before.map Prod.fst)
      (changed : R i j) :
      AtField key R (.obj (before ++ (key, i) :: after)) (.obj (before ++ (key, j) :: after))

/-- One item of a list is changed and nothing else. -/
inductive AtItem (R : Json → Json → Prop) : Json → Json → Prop
  | mk {before after : List Json} {i j : Json} (changed : R i j) :
      AtItem R (.arr (before ++ i :: after)) (.arr (before ++ j :: after))

/-- A field is added whose key is new, and none of the known ones. -/
inductive Added (known : List Text) : Json → Json → Prop
  | mk {before after : List (Text × Json)} {key : Text} {v : Json}
      (new : key ∉ (before ++ after).map Prod.fst) (unknown : key ∉ known) :
      Added known (.obj (before ++ after)) (.obj (before ++ (key, v) :: after))

/-- The items of a list are put into another order. -/
inductive Permuted : Json → Json → Prop
  | mk {xs ys : List Json} (perm : ys.Perm xs) : Permuted (.arr xs) (.arr ys)

section Fields

variable {before after : List (Text × Json)} {key other : Text} {v : Json}

theorem get?_append_of_ne (apart : other ≠ key) :
    Fields.get? (before ++ (key, v) :: after) other = Fields.get? (before ++ after) other := by
  have skipped : ((key, v) :: after).find? (fun p => p.1 == other) =
      after.find? fun p => p.1 == other := by
    rw [List.find?_cons_of_neg]
    simpa using apart.symm
  rw [Fields.get?, Fields.get?, List.find?_append, List.find?_append, skipped]

theorem get?_append_self (first : key ∉ before.map Prod.fst) :
    Fields.get? (before ++ (key, v) :: after) key = some v := by
  have none : before.find? (fun p => p.1 == key) = none := by
    rw [List.find?_eq_none]
    rintro p member same
    exact first (beq_iff_eq.1 same ▸ List.mem_map_of_mem member)
  rw [Fields.get?, List.find?_append, none, Option.none_or, List.find?_cons_of_pos (by simp)]
  rfl

/-- A change at a key is seen there and nowhere else. -/
theorem AtField.field? {R : Json → Json → Prop} {i j : Json} (h : AtField key R i j) :
    ∃ v w, i.field? key = some v ∧ j.field? key = some w ∧ R v w ∧
      ∀ k, k ≠ key → j.field? k = i.field? k := by
  cases h with
  | mk first changed =>
    refine ⟨_, _, get?_append_self first, get?_append_self first, changed, fun k apart => ?_⟩
    exact (get?_append_of_ne apart).trans (get?_append_of_ne apart).symm

/-- An added field is not seen at the known keys. -/
theorem Added.field? {known : List Text} {i j : Json} (h : Added known i j) :
    ∀ k ∈ known, j.field? k = i.field? k := by
  cases h with
  | mk _ unknown => exact fun k member => get?_append_of_ne fun same => unknown (same ▸ member)

end Fields

section Items

variable {α : Type} {W : Json → α → Prop} {xs : List Json} {as : List α} {i j : Json}

/-- What is written in the items of a list is written there after a change that keeps it in its item. -/
theorem AtItem.forall₂ {R : Json → Json → Prop} (h : AtItem R (.arr xs) j)
    (written : List.Forall₂ W xs as) (kept : ∀ x y a, R x y → W x a → W y a) :
    ∃ ys, j = .arr ys ∧ List.Forall₂ W ys as := by
  cases h with
  | @mk before after x y changed =>
    refine ⟨before ++ y :: after, rfl, ?_⟩
    induction before generalizing as with
    | nil =>
      cases written with
      | cons head tail => exact .cons (kept x y _ changed head) tail
    | cons b before ih =>
      cases written with
      | cons head tail => exact .cons head (ih tail)

end Items

end RequestCompiler.Json
