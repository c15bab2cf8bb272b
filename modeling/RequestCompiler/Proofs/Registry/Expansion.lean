import RequestCompiler.Proofs.Except
import RequestCompiler.Proofs.Json.Tree
import RequestCompiler.Registry.Expansion

/-!
# What a copy of an expansion keeps

A copy is the source without the fields that have the parent key, at every depth (`pruned`), and
it fails exactly if somewhere in the source a field follows that its object's parent holds
(`Blocked`): `copy_eq_ok_iff` and `exists_copy_eq_error_iff`. So a source without the parent key is
copied as it is, and no other source is (`pruned_eq_self_iff`).
-/

namespace RequestCompiler.Expansion

/-- The value names a parent when it stands under the parent key. -/
def namesParent : Json → Bool
  | .obj _ | .arr _ | .null => true
  | .bool _ | .num _ | .str _ => false

/-- The parent that these fields leave an object with; null if they leave it without one. -/
def parentOf (fields : List (Text × Json)) : Json :=
  ((fields.filter fun f => f.1 == parentKey && namesParent f.2).getLast?).elim .null (·.2)

/-- The names that the copy of a value holds as a parent: its own ones, and those of its parent. -/
inductive Holds : Json → Text → Prop
  | own {fields : List (Text × Json)} {f : Text × Json} (member : f ∈ fields)
      (plain : f.1 ≠ parentKey) : Holds (.obj fields) f.1
  | inherited {fields : List (Text × Json)} {key : Text} (held : Holds (parentOf fields) key) :
      Holds (.obj fields) key
  | listed {items : List Json} {key : Text} (member : key ∈ listFields items.length) :
      Holds (.arr items) key

/-- Among the fields after `before` is one that the parent in force at its place holds. -/
def FixedAfter (before fields : List (Text × Json)) : Prop :=
  ∃ front f back, fields = front ++ f :: back ∧ f.1 ≠ parentKey ∧
    Holds (parentOf (before ++ front)) f.1

/-- An object in the value has a field that its parent holds. -/
def Blocked (j : Json) : Prop := ∃ fields, Json.Inside (.obj fields) j ∧ FixedAfter [] fields

/-- No object in the value has the parent key. -/
def Plain (j : Json) : Prop :=
  ∀ fields, Json.Inside (.obj fields) j → ∀ f ∈ fields, f.1 ≠ parentKey

mutual

/-- The value without the fields that have the parent key. -/
def pruned : Json → Json
  | .obj fields => .obj (prunedFields fields)
  | .arr items => .arr (prunedItems items)
  | .null => .null
  | .bool b => .bool b
  | .num n => .num n
  | .str t => .str t
termination_by structural j => j

def prunedItems : List Json → List Json
  | [] => []
  | j :: r => pruned j :: prunedItems r
termination_by structural js => js

def prunedFields : List (Text × Json) → List (Text × Json)
  | [] => []
  | (key, j) :: r => if key = parentKey then prunedFields r else (key, pruned j) :: prunedFields r
termination_by structural fs => fs

end

section Parent

variable {before fields : List (Text × Json)} {key : Text} {j : Json}

theorem parentOf_concat_of_names (names : namesParent j = true) :
    parentOf (before ++ [(parentKey, j)]) = j := by
  simp [parentOf, names]

theorem parentOf_concat_of_skipped (skipped : namesParent j = false) :
    parentOf (before ++ [(parentKey, j)]) = parentOf before := by
  simp [parentOf, skipped]

theorem parentOf_concat_of_ne (plain : key ≠ parentKey) :
    parentOf (before ++ [(key, j)]) = parentOf before := by
  simp [parentOf, plain]

/-- Without the parent key there is no parent. -/
theorem parentOf_plain (plain : ∀ f ∈ fields, f.1 ≠ parentKey) : parentOf fields = .null := by
  have none : (fields.filter fun f => f.1 == parentKey && namesParent f.2) = [] := by
    rw [List.filter_eq_nil_iff]
    intro f member
    simp [plain f member]
  rw [parentOf, none]
  rfl

theorem not_holds_null : ¬Holds .null key := nofun

theorem holds_obj_iff :
    Holds (.obj fields) key ↔
      (key ≠ parentKey ∧ ∃ f ∈ fields, f.1 = key) ∨ Holds (parentOf fields) key := by
  constructor
  · intro held
    cases held with
    | own member plain => exact .inl ⟨plain, _, member, rfl⟩
    | inherited held => exact .inr held
  · rintro (⟨plain, f, member, rfl⟩ | held)
    · exact .own member plain
    · exact .inherited held

theorem holds_arr_iff {items : List Json} :
    Holds (.arr items) key ↔ key ∈ listFields items.length := by
  constructor
  · intro held
    cases held with
    | listed member => exact member
  · exact .listed

theorem not_fixedAfter_nil : ¬FixedAfter before [] := by
  rintro ⟨front, f, back, split, -⟩
  simp at split

/-- The first field is fixed where it stands, or a later one is. -/
theorem fixedAfter_cons_iff {f : Text × Json} :
    FixedAfter before (f :: fields) ↔
      (f.1 ≠ parentKey ∧ Holds (parentOf before) f.1) ∨ FixedAfter (before ++ [f]) fields := by
  constructor
  · rintro ⟨front, g, back, split, plain, held⟩
    cases front with
    | nil =>
      obtain ⟨rfl, rfl⟩ := List.cons.inj split
      exact .inl ⟨plain, by simpa using held⟩
    | cons h front =>
      obtain ⟨rfl, rfl⟩ := List.cons.inj split
      exact .inr ⟨front, g, back, rfl, plain, by simpa using held⟩
  · rintro (⟨plain, held⟩ | ⟨front, g, back, rfl, plain, held⟩)
    · exact ⟨[], f, fields, rfl, plain, by simpa using held⟩
    · exact ⟨f :: front, g, back, rfl, plain, by simpa using held⟩

/-- The fields after `before` cannot be copied. -/
def FieldsBlocked (before fields : List (Text × Json)) : Prop :=
  FixedAfter before fields ∨ ∃ f ∈ fields, Blocked f.2

theorem not_fieldsBlocked_nil : ¬FieldsBlocked before [] := by
  rintro (fixed | ⟨f, member, -⟩)
  · exact not_fixedAfter_nil fixed
  · cases member

theorem fieldsBlocked_cons_iff {f : Text × Json} :
    FieldsBlocked before (f :: fields) ↔ (f.1 ≠ parentKey ∧ Holds (parentOf before) f.1) ∨
      Blocked f.2 ∨ FieldsBlocked (before ++ [f]) fields := by
  rw [FieldsBlocked, FieldsBlocked, fixedAfter_cons_iff, List.exists_mem_cons_iff]
  tauto

theorem blocked_obj_iff : Blocked (.obj fields) ↔ FieldsBlocked [] fields := by
  constructor
  · rintro ⟨gs, inside, fixed⟩
    cases inside with
    | here => exact .inl fixed
    | field member inside => exact .inr ⟨_, member, gs, inside, fixed⟩
  · rintro (fixed | ⟨f, member, gs, inside, fixed⟩)
    · exact ⟨fields, .here, fixed⟩
    · exact ⟨gs, .field member inside, fixed⟩

theorem blocked_arr_iff {items : List Json} : Blocked (.arr items) ↔ ∃ i ∈ items, Blocked i := by
  constructor
  · rintro ⟨gs, inside, fixed⟩
    cases inside with
    | item member inside => exact ⟨_, member, gs, inside, fixed⟩
  · rintro ⟨i, member, gs, inside, fixed⟩
    exact ⟨gs, .item member inside, fixed⟩

end Parent

section Pruned

/-- A list is its own image if each of its elements is. -/
theorem map_eq_self_iff {α : Type} {f : α → α} {as : List α} : as.map f = as ↔ ∀ a ∈ as, f a = a := by
  have inj := List.map_inj_left (l := as) (f := f) (g := id)
  rwa [List.map_id] at inj

variable {fields : List (Text × Json)} {items : List Json} {key : Text}

theorem prunedItems_eq (items : List Json) : prunedItems items = items.map pruned := by
  induction items with
  | nil => rfl
  | cons j items ih => rw [prunedItems, ih, List.map_cons]

theorem prunedFields_eq (fields : List (Text × Json)) :
    prunedFields fields = (fields.filter fun f => f.1 ≠ parentKey).map fun f => (f.1, pruned f.2) := by
  induction fields with
  | nil => rfl
  | cons f fields ih =>
    by_cases isParent : f.1 = parentKey
    · simpa [prunedFields, isParent] using ih
    · simpa [prunedFields, isParent] using ih

theorem length_prunedItems : (prunedItems items).length = items.length := by
  rw [prunedItems_eq, List.length_map]

theorem mem_keys_prunedFields :
    key ∈ (prunedFields fields).map (·.1) ↔ key ≠ parentKey ∧ ∃ f ∈ fields, f.1 = key := by
  rw [prunedFields_eq, List.map_map, List.mem_map]
  simp only [List.mem_filter, decide_eq_true_eq, Function.comp]
  constructor
  · rintro ⟨f, ⟨member, plain⟩, rfl⟩
    exact ⟨plain, f, member, rfl⟩
  · rintro ⟨plain, f, member, rfl⟩
    exact ⟨f, ⟨member, plain⟩, rfl⟩

theorem prunedItems_eq_self_iff : prunedItems items = items ↔ ∀ j ∈ items, pruned j = j := by
  rw [prunedItems_eq, map_eq_self_iff]

/-- A field that is left out is missing for good: the rest is too short to make up for it. -/
theorem prunedFields_eq_self_iff :
    prunedFields fields = fields ↔ ∀ f ∈ fields, f.1 ≠ parentKey ∧ pruned f.2 = f.2 := by
  rw [prunedFields_eq]
  constructor
  · intro same
    have length := congrArg List.length same
    rw [List.length_map, List.length_filter_eq_length_iff] at length
    rw [List.filter_eq_self.2 length, map_eq_self_iff] at same
    intro f member
    exact ⟨of_decide_eq_true (length f member), congrArg Prod.snd (same f member)⟩
  · intro each
    rw [List.filter_eq_self.2 fun f member => decide_eq_true (each f member).1, map_eq_self_iff]
    exact fun f member => Prod.ext rfl (each f member).2

theorem plain_arr_iff : Plain (.arr items) ↔ ∀ j ∈ items, Plain j := by
  constructor
  · exact fun plain j member fields inside => plain fields (.item member inside)
  · intro plain fields inside
    cases inside with
    | item member inside => exact plain _ member fields inside

theorem plain_obj_iff : Plain (.obj fields) ↔ ∀ f ∈ fields, f.1 ≠ parentKey ∧ Plain f.2 := by
  constructor
  · exact fun plain f member =>
      ⟨plain fields .here f member, fun gs inside => plain gs (.field member inside)⟩
  · intro plain gs inside
    cases inside with
    | here => exact fun f member => (plain f member).1
    | field member inside => exact (plain _ member).2 gs inside

end Pruned

/-- The result of a copy is right for a value: without a blocked field it is the pruned value with
the names that this holds, and with one it is a fault. -/
def Copies (j : Json) : Prop :=
  (∃ c, copyOf j = .ok c ∧ c.value = pruned j ∧ (∀ key, key ∈ c.holds ↔ Holds j key) ∧ ¬Blocked j) ∨
    ∃ fault, copyOf j = .error fault ∧ Blocked j

/-- The items of a list are copied one by one. -/
theorem copyItems_eq {items : List Json} (each : ∀ j ∈ items, Copies j) :
    (copyItems items = .ok (prunedItems items) ∧ ∀ j ∈ items, ¬Blocked j) ∨
      ∃ fault, copyItems items = .error fault ∧ ∃ j ∈ items, Blocked j := by
  induction items with
  | nil => exact .inl ⟨rfl, nofun⟩
  | cons j items ih =>
    have rest := ih fun i member => each i (List.mem_cons_of_mem _ member)
    rcases each j List.mem_cons_self with ⟨c, copied, value, -, free⟩ | ⟨fault, failed, blocked⟩
    · rcases rest with ⟨done, others⟩ | ⟨fault, failed, i, member, blocked⟩
      · left
        refine ⟨?_, ?_⟩
        · simp [copyItems, prunedItems, copied, done, value, Except.map]
        · simpa [free] using others
      · right
        refine ⟨fault, ?_, i, List.mem_cons_of_mem _ member, blocked⟩
        simp [copyItems, copied, failed, Except.map]
    · right
      refine ⟨fault, ?_, j, List.mem_cons_self, blocked⟩
      simp [copyItems, failed]

/-- The names fixed after a field with the parent key are those of the parent it leaves. -/
theorem mem_parentAfter_iff {before : List (Text × Json)} {parent : List Text} {j : Json} {c : Copy}
    (names : ∀ key, key ∈ parent ↔ Holds (parentOf before) key)
    (held : ∀ key, key ∈ c.holds ↔ Holds j key) (key : Text) :
    key ∈ parentAfter parent j c ↔ Holds (parentOf (before ++ [(parentKey, j)])) key := by
  cases j with
  | obj fields =>
    rw [parentOf_concat_of_names rfl]
    exact held key
  | arr items =>
    rw [parentOf_concat_of_names rfl]
    exact held key
  | null =>
    rw [parentOf_concat_of_names rfl]
    exact iff_of_false List.not_mem_nil not_holds_null
  | bool _ | num _ | str _ =>
    rw [parentOf_concat_of_skipped rfl]
    exact names key

/-- The result of copying the fields after `before` is right for them, as `Copies` says it of a value:
with the names that the parent holds at the end, or with a fault. -/
def CopiesFields (before : List (Text × Json)) (parent : List Text) (fields : List (Text × Json)) :
    Prop :=
  (∃ last, copyFields parent fields = .ok (prunedFields fields, last) ∧
      (∀ key, key ∈ last ↔ Holds (parentOf (before ++ fields)) key) ∧ ¬FieldsBlocked before fields) ∨
    ∃ fault, copyFields parent fields = .error fault ∧ FieldsBlocked before fields

section CopiesFields

variable {before fields : List (Text × Json)} {parent : List Text} {key : Text} {j : Json} {c : Copy}

/-- A field with the parent key is left out, and the fields after it see its value. -/
theorem CopiesFields.skipped (copied : copyOf j = .ok c) (free : ¬Blocked j)
    (rest : CopiesFields (before ++ [(parentKey, j)]) (parentAfter parent j c) fields) :
    CopiesFields before parent ((parentKey, j) :: fields) := by
  have step : copyFields parent ((parentKey, j) :: fields)
      = copyFields (parentAfter parent j c) fields := by simp [copyFields, copied]
  have skipped : prunedFields ((parentKey, j) :: fields) = prunedFields fields := by
    simp [prunedFields]
  rw [CopiesFields, fieldsBlocked_cons_iff, List.append_cons, step, skipped]
  rcases rest with ⟨last, done, inForce, clear⟩ | ⟨fault, failed, blocked⟩
  · refine .inl ⟨last, done, inForce, ?_⟩
    rintro (⟨plain, -⟩ | blocked | blocked)
    · exact plain rfl
    · exact free blocked
    · exact clear blocked
  · exact .inr ⟨fault, failed, .inr (.inr blocked)⟩

/-- A field that the parent in force does not hold is kept, and leaves that parent in force. -/
theorem CopiesFields.kept (names : ∀ k, k ∈ parent ↔ Holds (parentOf before) k)
    (copied : copyOf j = .ok c) (value : c.value = pruned j) (free : ¬Blocked j)
    (plain : key ≠ parentKey) (unfixed : key ∉ parent)
    (rest : CopiesFields (before ++ [(key, j)]) parent fields) :
    CopiesFields before parent ((key, j) :: fields) := by
  have step : copyFields parent ((key, j) :: fields)
      = (copyFields parent fields).map fun p => ((key, c.value) :: p.1, p.2) := by
    simp [copyFields, copied, plain, unfixed]
  have kept : prunedFields ((key, j) :: fields) = (key, c.value) :: prunedFields fields := by
    simp [prunedFields, plain, value]
  rw [CopiesFields, fieldsBlocked_cons_iff, List.append_cons, step, kept]
  rcases rest with ⟨last, done, inForce, clear⟩ | ⟨fault, failed, blocked⟩
  · refine .inl ⟨last, by rw [done]; rfl, inForce, ?_⟩
    rintro (⟨-, inherited⟩ | blocked | blocked)
    · exact unfixed ((names key).2 inherited)
    · exact free blocked
    · exact clear blocked
  · exact .inr ⟨fault, by rw [failed]; rfl, .inr (.inr blocked)⟩

/-- Fields are copied one by one, beside the names that the parent in force at their places holds. -/
theorem copyFields_eq (names : ∀ k, k ∈ parent ↔ Holds (parentOf before) k)
    (each : ∀ f ∈ fields, Copies f.2) : CopiesFields before parent fields := by
  induction fields generalizing before parent with
  | nil => exact .inl ⟨parent, rfl, by simpa using names, not_fieldsBlocked_nil⟩
  | cons f fields ih =>
    obtain ⟨key, j⟩ := f
    have others : ∀ f ∈ fields, Copies f.2 := fun f member => each f (List.mem_cons_of_mem _ member)
    rcases each _ List.mem_cons_self with ⟨c, copied, value, held, free⟩ | ⟨fault, failed, blocked⟩
    · by_cases isParent : key = parentKey
      · subst isParent
        exact .skipped copied free (ih (mem_parentAfter_iff names held) others)
      · by_cases fixed : key ∈ parent
        · refine .inr ⟨.fixedField key, by simp [copyFields, copied, isParent, fixed], ?_⟩
          exact fieldsBlocked_cons_iff.2 (.inl ⟨isParent, (names key).1 fixed⟩)
        · have same : ∀ k, k ∈ parent ↔ Holds (parentOf (before ++ [(key, j)])) k := by
            rw [parentOf_concat_of_ne isParent]
            exact names
          exact .kept names copied value free isParent fixed (ih same others)
    · refine .inr ⟨fault, by simp [copyFields, failed], ?_⟩
      exact fieldsBlocked_cons_iff.2 (.inr (.inl blocked))

end CopiesFields

/-- Every value is copied as `Copies` says. -/
theorem copies (j : Json) : Copies j := by
  have nothing : ∀ key, key ∈ ([] : List Text) ↔ Holds (parentOf []) key := fun _ =>
    iff_of_false List.not_mem_nil not_holds_null
  induction j using Json.induction with
  | null | bool _ | num _ | str _ =>
    refine .inl ⟨_, rfl, rfl, fun _ => iff_of_false List.not_mem_nil nofun, ?_⟩
    rintro ⟨fields, inside, -⟩
    cases inside
  | arr items each =>
    rw [Copies, blocked_arr_iff]
    rcases copyItems_eq each with ⟨done, clear⟩ | ⟨fault, failed, blocked⟩
    · refine .inl ⟨⟨.arr (prunedItems items), listFields (prunedItems items).length⟩, ?_, rfl, ?_, ?_⟩
      · rw [copyOf, done]
        rfl
      · exact fun key => by rw [length_prunedItems, holds_arr_iff]
      · simpa using clear
    · exact .inr ⟨fault, by rw [copyOf, failed]; rfl, blocked⟩
  | obj fields each =>
    rw [Copies, blocked_obj_iff]
    rcases copyFields_eq nothing each with ⟨last, done, inForce, clear⟩ | ⟨fault, failed, blocked⟩
    · refine .inl ⟨⟨.obj (prunedFields fields), (prunedFields fields).map (·.1) ++ last⟩, ?_, rfl, ?_,
        clear⟩
      · rw [copyOf, done]
        rfl
      · intro key
        rw [holds_obj_iff, List.mem_append, inForce, mem_keys_prunedFields]
        rfl
    · exact .inr ⟨fault, by rw [copyOf, failed]; rfl, blocked⟩

/-- A value is copied exactly if none of its fields is blocked, and the copy is the pruned value. -/
theorem copy_eq_ok_iff {j c : Json} : copy j = .ok c ↔ ¬Blocked j ∧ c = pruned j := by
  rw [copy, map_eq_ok_iff]
  rcases copies j with ⟨c', copied, value, -, free⟩ | ⟨fault, failed, blocked⟩
  · simp [copied, value, free, eq_comm]
  · simp [failed, blocked]

theorem exists_copy_eq_error_iff {j : Json} : (∃ fault, copy j = .error fault) ↔ Blocked j := by
  rw [copy]
  rcases copies j with ⟨c, copied, -, -, free⟩ | ⟨fault, failed, blocked⟩
  · simp [copied, free, Except.map]
  · simp [failed, blocked, Except.map]

/-- The values that are their own pruned form are those without the parent key. -/
theorem pruned_eq_self_iff {j : Json} : pruned j = j ↔ Plain j := by
  induction j using Json.induction with
  | null | bool _ | num _ | str _ =>
    refine iff_of_true rfl ?_
    intro fields inside
    cases inside
  | arr items each =>
    rw [pruned, Json.arr.injEq, prunedItems_eq_self_iff, plain_arr_iff]
    exact forall₂_congr each
  | obj fields each =>
    rw [pruned, Json.obj.injEq, prunedFields_eq_self_iff, plain_obj_iff]
    exact forall₂_congr fun f member => and_congr_right fun _ => each f member

/-- A pruned value is free of the parent key. -/
theorem plain_pruned (j : Json) : Plain (pruned j) := by
  induction j using Json.induction with
  | null | bool _ | num _ | str _ => exact pruned_eq_self_iff.1 rfl
  | arr items each =>
    rw [pruned, prunedItems_eq, plain_arr_iff]
    exact List.forall_mem_map.2 each
  | obj fields each =>
    rw [pruned, prunedFields_eq, plain_obj_iff]
    refine List.forall_mem_map.2 fun f member => ?_
    obtain ⟨field, plain⟩ := List.mem_filter.1 member
    exact ⟨of_decide_eq_true plain, each f field⟩

theorem pruned_ne_null {j : Json} (some : j ≠ .null) : pruned j ≠ .null := by
  cases j with
  | null => exact absurd rfl some
  | _ => nofun

/-- Nothing is blocked without the parent key. -/
theorem Plain.not_blocked {j : Json} (plain : Plain j) : ¬Blocked j := by
  rintro ⟨fields, inside, front, f, back, split, -, held⟩
  have none : parentOf ([] ++ front) = .null :=
    parentOf_plain fun g member => plain fields inside g (split ▸ List.mem_append_left _ member)
  rw [none] at held
  exact not_holds_null held

end RequestCompiler.Expansion
