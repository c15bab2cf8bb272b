import RequestCompiler.Json

/-!
# Values as trees

`Json.induction` is induction over a value through the lists and objects in it, and `Json.Inside`
says that a value occurs in another one, at any depth.
-/

namespace RequestCompiler.Json

/-- Induction over a value, with a hypothesis for each item and each field. -/
@[elab_as_elim]
theorem induction {motive : Json → Prop} (null : motive .null) (bool : ∀ b, motive (.bool b))
    (num : ∀ n, motive (.num n)) (str : ∀ t, motive (.str t))
    (arr : ∀ items, (∀ j ∈ items, motive j) → motive (.arr items))
    (obj : ∀ fields, (∀ f ∈ fields, motive f.2) → motive (.obj fields)) : ∀ j, motive j := by
  -- The recursor's own motives for lists of items and of fields speak of every member.
  refine @Json.rec motive (fun items => ∀ j ∈ items, motive j) (fun fields => ∀ f ∈ fields, motive f.2)
    (fun f => motive f.2) null bool num str arr obj ?_ ?_ ?_ ?_ ?_
  · exact nofun
  · intro j items first rest i member
    rcases List.mem_cons.1 member with rfl | member
    · exact first
    · exact rest i member
  · exact nofun
  · intro f fields first rest g member
    rcases List.mem_cons.1 member with rfl | member
    · exact first
    · exact rest g member
  · exact fun _ _ value => value

/-- A value occurs in another one, which may be itself. -/
inductive Inside (j : Json) : Json → Prop
  | here : Inside j j
  | item {items : List Json} {i : Json} (member : i ∈ items) (inside : Inside j i) :
      Inside j (.arr items)
  | field {fields : List (Text × Json)} {f : Text × Json} (member : f ∈ fields)
      (inside : Inside j f.2) : Inside j (.obj fields)

end RequestCompiler.Json
