import RequestCompiler.Proofs.Json.Reordered

/-!
# The canonical text is the content

`SameContent i j` says that two values are equal but for the order of keys, at every depth, and the sign of
zeros. Between values whose numbers are finite and whose keys are distinct this is what the canonical text tells
(`canonical_eq_iff`): its first unit tells the kind of a value, and then the text of a number, the quotes of a
text, or the texts between brackets tell the rest.
-/

namespace RequestCompiler.Json

/-- Numbers are finite and the keys of an object are distinct, at every depth. -/
inductive Proper : Json → Prop
  | null : Proper .null
  | bool (b : Bool) : Proper (.bool b)
  | num {n : Binary64} (finite : n.isFinite = true) : Proper (.num n)
  | str (t : Text) : Proper (.str t)
  | arr {items : List Json} (each : ∀ j ∈ items, Proper j) : Proper (.arr items)
  | obj {fields : List (Text × Json)} (distinct : (fields.map Prod.fst).Nodup)
      (each : ∀ f ∈ fields, Proper f.2) : Proper (.obj fields)

/-- The values are equal but for the order of keys and the sign of zeros, at every depth. -/
inductive SameContent : Json → Json → Prop
  | null : SameContent .null .null
  | bool (b : Bool) : SameContent (.bool b) (.bool b)
  | num {m n : Binary64} (same : m.same n = true) : SameContent (.num m) (.num n)
  | str (t : Text) : SameContent (.str t) (.str t)
  | arr {xs ys : List Json} (length : xs.length = ys.length)
      (items : ∀ (n : Nat) (x y : Json), xs[n]? = some x → ys[n]? = some y → SameContent x y) :
      SameContent (.arr xs) (.arr ys)
  | obj {fs gs : List (Text × Json)} (keys : (gs.map Prod.fst).Perm (fs.map Prod.fst))
      (values : ∀ key i j, (key, i) ∈ fs → (key, j) ∈ gs → SameContent i j) :
      SameContent (.obj fs) (.obj gs)

section Kind

/-- The kinds of values. -/
inductive Kind
  | null
  | bool
  | num
  | str
  | arr
  | obj

def kind : Json → Kind
  | .null => .null
  | .bool _ => .bool
  | .num _ => .num
  | .str _ => .str
  | .arr _ => .arr
  | .obj _ => .obj

/-- The kind of a value whose text starts with the unit. -/
def kindOf (u : UInt16) : Kind :=
  if u = unit 'n' then .null
  else if u = unit 't' ∨ u = unit 'f' then .bool
  else if u = unit '"' then .str
  else if u = unit '[' then .arr
  else if u = unit '{' then .obj
  else .num

theorem kindOf_lead {u : UInt16} (lead : u = unit '-' ∨ Numeral.isDigit u = true) : kindOf u = .num := by
  have apart : ∀ v, v ≠ unit '-' → Numeral.isDigit v = false → u ≠ v := fun _ => Numeral.ne_of_lead lead
  rw [kindOf, if_neg (apart _ (by decide) (by decide)), if_neg, if_neg (apart _ (by decide) (by decide)),
    if_neg (apart _ (by decide) (by decide)), if_neg (apart _ (by decide) (by decide))]
  exact not_or.2 ⟨apart _ (by decide) (by decide), apart _ (by decide) (by decide)⟩

variable {i j : Json}

/-- A canonical text starts with a unit that tells the kind of the value. -/
theorem canonical_eq_cons (proper : j.Proper) : ∃ u t, j.canonical = u :: t ∧ kindOf u = j.kind := by
  cases proper with
  | null => exact ⟨_, _, rfl, rfl⟩
  | bool b => cases b <;> exact ⟨_, _, rfl, rfl⟩
  | @num n finite =>
    obtain ⟨u, t, text, lead⟩ := Binary64.exists_lead finite
    refine ⟨u, t, ?_, kindOf_lead lead⟩
    rw [canonical, numberText, if_pos finite, text]
  | str t => exact ⟨unit '"', _, rfl, rfl⟩
  | @arr items each => exact ⟨unit '[', _, rfl, rfl⟩
  | @obj fields distinct each => exact ⟨unit '{', _, rfl, rfl⟩

theorem canonical_ne_nil (proper : j.Proper) : j.canonical ≠ [] := by
  obtain ⟨u, t, text, -⟩ := canonical_eq_cons proper
  rw [text]
  exact List.cons_ne_nil u t

theorem kind_eq (proper : i.Proper) (proper' : j.Proper) (same : i.canonical = j.canonical) :
    i.kind = j.kind := by
  obtain ⟨u, t, text, kind⟩ := canonical_eq_cons proper
  obtain ⟨u', t', text', kind'⟩ := canonical_eq_cons proper'
  rw [text, text'] at same
  rw [← kind, ← kind', (List.cons.inj same).1]

end Kind

section Content

variable {i j : Json}

theorem canonical_num_eq_iff {m n : Binary64} (finite : m.isFinite = true) (finite' : n.isFinite = true) :
    canonical (.num m) = canonical (.num n) ↔ m.same n = true := by
  rw [canonical, canonical, numberText, numberText, if_pos finite, if_pos finite',
    Binary64.text_eq_iff finite finite']

/-- The order of keys and the sign of zeros do not show in a canonical text. -/
theorem SameContent.canonical_eq (same : SameContent i j) (proper : i.Proper) (proper' : j.Proper) :
    i.canonical = j.canonical := by
  induction same with
  | null => rfl
  | bool b => rfl
  | num same =>
    cases proper with | num finite =>
    cases proper' with | num finite' =>
    exact (canonical_num_eq_iff finite finite').2 same
  | str t => rfl
  | arr length _ ih =>
    cases proper with | arr each =>
    cases proper' with | arr each' =>
    refine canonical_arr_congr (map_eq_map_iff_get?.2 ⟨length, fun n x y hx hy => ?_⟩)
    exact ih n x y hx hy (each x (List.mem_of_getElem? hx)) (each' y (List.mem_of_getElem? hy))
  | obj keys _ ih =>
    cases proper with | obj distinct each =>
    cases proper' with | obj _ each' =>
    refine canonical_obj_congr distinct keys fun key x y hx hy => ?_
    exact ih key x y hx hy (each _ hx) (each' _ hy)

/-- Everything else shows in it. -/
theorem sameContent_of_canonical_eq (proper : i.Proper) (proper' : j.Proper)
    (same : i.canonical = j.canonical) : SameContent i j := by
  -- The texts start alike, so the other value is of the kind of this one.
  induction i using Json.induction generalizing j with
  | null =>
    cases j with
    | null => exact .null
    | _ => exact nomatch kind_eq proper proper' same
  | bool b =>
    cases j with
    | bool b' =>
      have value : b = b' := by
        cases b <;> cases b' <;> first | rfl | exact absurd same (by decide)
      exact value ▸ .bool b
    | _ => exact nomatch kind_eq proper proper' same
  | num n =>
    cases j with
    | num m =>
      cases proper with | num finite =>
      cases proper' with | num finite' =>
      exact .num ((canonical_num_eq_iff finite finite').1 same)
    | _ => exact nomatch kind_eq proper proper' same
  | str t =>
    cases j with
    | str t' => exact canonical_str_inj.1 same ▸ .str t
    | _ => exact nomatch kind_eq proper proper' same
  | arr xs ih =>
    cases j with
    | arr ys =>
      cases proper with | arr each =>
      cases proper' with | arr each' =>
      obtain ⟨length, items⟩ := map_eq_map_iff_get?.1
        (canonical_arr_inj (fun x hx => canonical_ne_nil (each x hx))
          (fun y hy => canonical_ne_nil (each' y hy)) same)
      refine .arr length fun n x y hx hy => ?_
      have member := List.mem_of_getElem? hx
      exact ih x member (each x member) (each' y (List.mem_of_getElem? hy)) (items n x y hx hy)
    | _ => exact nomatch kind_eq proper proper' same
  | obj fs ih =>
    cases j with
    | obj gs =>
      cases proper with | obj distinct each =>
      cases proper' with | obj _ each' =>
      have keys := ((canonical_obj_inj same).map Prod.fst).symm
      rw [List.map_map, List.map_map] at keys
      refine .obj keys fun key x y hx hy => ?_
      exact ih _ hx (each _ hx) (each' _ hy) (canonical_value_inj distinct same hx hy)
    | _ => exact nomatch kind_eq proper proper' same

/-- Two values have the same canonical text exactly if they are equal but for the order of keys and the sign of
zeros. -/
theorem canonical_eq_iff (proper : i.Proper) (proper' : j.Proper) :
    i.canonical = j.canonical ↔ SameContent i j :=
  ⟨sameContent_of_canonical_eq proper proper', fun same => same.canonical_eq proper proper'⟩

end Content

section Layered

/-- An object with a list and an object in it. -/
def layered : Json :=
  .object [("a", .arr [.num .zero, .str "\",["]), ("b", .object [("c", .null), ("d", .bool true)])]

/-- The keys are turned around at both depths, and the zero has a sign. -/
def turned : Json :=
  .object [("b", .object [("d", .bool true), ("c", .null)]), ("a", .arr [.num (.ofOrder true 0), .str "\",["])]

/-- The items of the list are turned around. -/
def swapped : Json :=
  .object [("a", .arr [.str "\",[", .num .zero]), ("b", .object [("c", .null), ("d", .bool true)])]

section Two

variable {key key' : Text} {i i' j j' : Json}

theorem proper_items (first : i.Proper) (second : j.Proper) : Proper (.arr [i, j]) :=
  .arr (by simpa using ⟨first, second⟩)

theorem proper_fields (apart : key ≠ key') (first : i.Proper) (second : j.Proper) :
    Proper (.obj [(key, i), (key', j)]) := by
  refine .obj ?_ ?_
  · simpa using apart
  · simpa using ⟨first, second⟩

theorem sameContent_items (first : SameContent i i') (second : SameContent j j') :
    SameContent (.arr [i, j]) (.arr [i', j']) := by
  refine .arr rfl fun n x y hx hy => ?_
  cases n with
  | zero => exact Option.some.inj hx ▸ Option.some.inj hy ▸ first
  | succ n =>
    cases n with
    | zero => exact Option.some.inj hx ▸ Option.some.inj hy ▸ second
    | succ n => simp at hx

theorem sameContent_fields (apart : key ≠ key') (first : SameContent i i') (second : SameContent j j') :
    SameContent (.obj [(key, i), (key', j)]) (.obj [(key', j'), (key, i')]) := by
  refine .obj (.swap _ _ _) fun k x y hx hy => ?_
  simp only [List.mem_cons, List.not_mem_nil, or_false, Prod.mk.injEq] at hx hy
  obtain ⟨rfl, rfl⟩ | ⟨rfl, rfl⟩ := hx
  · obtain ⟨same, -⟩ | ⟨-, rfl⟩ := hy
    · exact absurd same apart
    · exact first
  · obtain ⟨-, rfl⟩ | ⟨same, -⟩ := hy
    · exact second
    · exact absurd same apart.symm

end Two

theorem not_sameContent_swapped : ¬SameContent layered swapped := by
  intro same
  cases same with | obj keys values =>
  cases values (Text.ofString "a") _ _ (.head _) (.head _) with | arr length items =>
  exact nomatch items 0 _ _ rfl rfl

theorem canonical_eq_iff_layered : layered.Proper ∧ turned.Proper ∧ swapped.Proper ∧
    layered.canonical = turned.canonical ∧ layered.canonical ≠ swapped.canonical := by
  have proper : layered.Proper := proper_fields (by decide) (proper_items (.num rfl) (.str _))
    (proper_fields (by decide) .null (.bool true))
  have proper' : turned.Proper := proper_fields (by decide) (proper_fields (by decide) (.bool true) .null)
    (proper_items (.num rfl) (.str _))
  have proper'' : swapped.Proper := proper_fields (by decide) (proper_items (.str _) (.num rfl))
    (proper_fields (by decide) .null (.bool true))
  have same : SameContent layered turned := sameContent_fields (by decide)
    (sameContent_items (.num (by decide)) (.str _)) (sameContent_fields (by decide) .null (.bool true))
  exact ⟨proper, proper', proper'', (canonical_eq_iff proper proper').2 same,
    fun same => not_sameContent_swapped ((canonical_eq_iff proper proper'').1 same)⟩

end Layered

end RequestCompiler.Json
