import RequestCompiler.Proofs.Json.Canonical
import RequestCompiler.Proofs.Json.Reading
import RequestCompiler.Proofs.Text.Pieces

/-!
# Values are read back

The compact text of a value is read as the value, whatever follows it that no numeral goes on with
(`readValue_compact`), so `read` undoes `compact` (`read_compact`). This is so for the `Regular`
values: their numbers are read back from their texts, and the fields of their objects stand in key
order. The compact text of a regular value is one line (`feed_not_mem_compact`), without a lone
surrogate (`wellFormed_compact`).
-/

namespace RequestCompiler.Json

/-- The text of the number is a numeral that is read as the number. -/
structure Spelled (n : Binary64) : Prop where
  lead : ∃ u r, numberText n = u :: r ∧ (u = unit '-' ∨ Numeral.isDigit u = true)
  whole : readNumber (numberText n) = some (num n, [])
  ascii : ∀ u ∈ numberText n, 0x20 ≤ u.toNat ∧ u.toNat < 0x80

/-- A value that its compact text is read back as. -/
inductive Regular : Json → Prop
  | null : Regular .null
  | bool (b : Bool) : Regular (.bool b)
  | num {n : Binary64} (spelled : Spelled n) : Regular (.num n)
  | str (t : Text) : Regular (.str t)
  | arr {items : List Json} (each : ∀ j ∈ items, Regular j) : Regular (.arr items)
  | obj {fields : List (Text × Json)} (ordered : Fields.ofList fields = fields)
      (each : ∀ f ∈ fields, Regular f.2) : Regular (.obj fields)

section Forms

theorem compactItems_eq (items : List Json) : compactItems items = items.map compact := by
  induction items with
  | nil => rfl
  | cons j items ih => rw [compactItems, ih, List.map_cons]

/-- The text of a field with its value in compact form. -/
def compactField (f : Text × Json) : Text := fieldText (f.1, compact f.2)

theorem compactFields_eq (fields : List (Text × Json)) :
    compactFields fields = fields.map compactField := by
  induction fields with
  | nil => rfl
  | cons f fields ih =>
    rw [compactFields, ih, List.map_cons]
    rfl

theorem compact_arr (items : List Json) :
    compact (.arr items) = unit '[' :: (Text.join [unit ','] (items.map compact) ++ [unit ']']) := by
  rw [compact, compactItems_eq]
  rfl

theorem compact_obj (fields : List (Text × Json)) :
    compact (.obj fields) =
      unit '{' :: (Text.join [unit ','] (fields.map compactField) ++ [unit '}']) := by
  rw [compact, compactFields_eq]
  rfl

theorem compactField_eq (f : Text × Json) :
    compactField f = unit '"' :: (Text.escape f.1 ++ unit '"' :: unit ':' :: compact f.2) := by
  rw [compactField, fieldText, Text.quote, List.append_assoc, List.append_assoc]
  rfl

/-- A unit that the compact text of a value can start with. -/
def StartsValue (u : UInt16) : Prop := isSpace u = false ∧ u ≠ unit ']'

instance (u : UInt16) : Decidable (StartsValue u) := inferInstanceAs (Decidable (_ ∧ _))

theorem startsValue_of_lead {u : UInt16} (lead : u = unit '-' ∨ Numeral.isDigit u = true) :
    StartsValue u := by
  have apart : ∀ v, v ≠ unit '-' → Numeral.isDigit v = false → u ≠ v := fun _ => Numeral.ne_of_lead lead
  refine ⟨Bool.eq_false_iff.2 fun space => ?_, apart _ (by decide) (by decide)⟩
  rcases isSpace_iff.1 space with same | same | same | same <;>
    exact apart _ (by decide) (by decide) same

theorem exists_compact_eq_cons {j : Json} (regular : Regular j) :
    ∃ u t, compact j = u :: t ∧ StartsValue u := by
  cases regular with
  | null => exact ⟨_, _, rfl, by decide⟩
  | bool b => cases b <;> exact ⟨_, _, rfl, by decide⟩
  | num spelled =>
    obtain ⟨u, r, text, lead⟩ := spelled.lead
    exact ⟨u, r, text, startsValue_of_lead lead⟩
  | str t => exact ⟨unit '"', _, rfl, by decide⟩
  | arr each => exact ⟨unit '[', _, compact_arr _, by decide⟩
  | obj ordered each => exact ⟨unit '{', _, compact_obj _, by decide⟩

end Forms

section Reading

/-- The compact text of the value is read as the value, if the count is large enough. -/
def ReadsBack (j : Json) : Prop :=
  ∀ n r, 2 * (compact j).length ≤ n → (∀ u ∈ r.head?, StopsNumeral u) →
    readValue n (compact j ++ r) = some (j, r)

theorem readItems_join {items : List Json} (ne : items ≠ []) (each : ∀ j ∈ items, ReadsBack j)
    (n : Nat) (r : Text) (enough : 2 * (Text.join [unit ','] (items.map compact)).length + 1 ≤ n) :
    readItems n (Text.join [unit ','] (items.map compact) ++ unit ']' :: r) = some (items, r) := by
  have comma : StopsNumeral (unit ',') := by decide
  have bracket : StopsNumeral (unit ']') := by decide
  induction items generalizing n with
  | nil => exact absurd rfl ne
  | cons j items ih =>
    rw [List.forall_mem_cons] at each
    obtain ⟨n, rfl⟩ : ∃ k, n = k + 1 := ⟨n - 1, by omega⟩
    rw [readItems_eq_some_iff]
    by_cases last : items = []
    · subst last
      have value := each.1 n (unit ']' :: r) (by simpa [Text.join] using enough)
        (by simpa using bracket)
      exact .last value (skipSpace_cons (by decide) r)
    · rw [List.map_cons, Text.join_cons (by simpa using last)] at enough ⊢
      simp only [List.length_append, List.length_cons] at enough
      rw [List.append_assoc, List.cons_append]
      have value := each.1 n (unit ',' :: (Text.join [unit ','] (items.map compact) ++ unit ']' :: r))
        (by omega) (by simpa using comma)
      exact .cons value (skipSpace_cons (by decide) _) (ih last each.2 n (by omega))

theorem fieldRead_compact {f : Text × Json} (value : ReadsBack f.2) {n : Nat} {r : Text}
    (enough : 2 * (compactField f).length ≤ n) (stop : ∀ u ∈ r.head?, StopsNumeral u) :
    FieldRead n (compactField f ++ r) f.1 f.2 r := by
  rw [compactField_eq] at enough
  simp only [List.length_cons, List.length_append] at enough
  refine ⟨Text.escape f.1 ++ unit '"' :: (unit ':' :: (compact f.2 ++ r)), unit ':' :: (compact f.2 ++ r),
    compact f.2 ++ r, ?_, Text.unquote_escape _ _, skipSpace_cons (by decide) _,
    value n r (by omega) stop⟩
  rw [compactField_eq, List.cons_append, skipSpace_cons (by decide), List.append_assoc]
  rfl

theorem readMembers_join {fields : List (Text × Json)} (ne : fields ≠ [])
    (each : ∀ f ∈ fields, ReadsBack f.2) (n : Nat) (r : Text)
    (enough : 2 * (Text.join [unit ','] (fields.map compactField)).length + 1 ≤ n) :
    readMembers n (Text.join [unit ','] (fields.map compactField) ++ unit '}' :: r) =
      some (fields, r) := by
  have comma : StopsNumeral (unit ',') := by decide
  have brace : StopsNumeral (unit '}') := by decide
  induction fields generalizing n with
  | nil => exact absurd rfl ne
  | cons f fields ih =>
    rw [List.forall_mem_cons] at each
    obtain ⟨n, rfl⟩ : ∃ k, n = k + 1 := ⟨n - 1, by omega⟩
    rw [readMembers_eq_some_iff]
    by_cases last : fields = []
    · subst last
      have field := fieldRead_compact each.1 (n := n) (r := unit '}' :: r)
        (by simpa [Text.join] using enough) (by simpa using brace)
      exact .last field (skipSpace_cons (by decide) r)
    · rw [List.map_cons, Text.join_cons (by simpa using last)] at enough ⊢
      simp only [List.length_append, List.length_cons] at enough
      rw [List.append_assoc, List.cons_append]
      have field := fieldRead_compact each.1 (n := n)
        (r := unit ',' :: (Text.join [unit ','] (fields.map compactField) ++ unit '}' :: r))
        (by omega) (by simpa using comma)
      exact .cons field (skipSpace_cons (by decide) _) (ih last each.2 n (by omega))

theorem readsBack_word {j : Json} {u : UInt16} {t : Text} (text : compact j = u :: t)
    (solid : isSpace u = false)
    (lead : u ≠ unit '{' ∧ u ≠ unit '[' ∧ u ≠ unit '"' ∧ ¬(u = unit '-' ∨ Numeral.isDigit u = true))
    (read : ∀ r, readWord (u :: (t ++ r)) = some (j, r)) : ReadsBack j := by
  intro n r enough _
  rw [text] at enough ⊢
  rw [List.length_cons] at enough
  obtain ⟨n, rfl⟩ : ∃ k, n = k + 1 := ⟨n - 1, by omega⟩
  exact readValue_eq_some_iff.2 (.word (skipSpace_cons solid _) lead (read r))

theorem readsBack_arr {items : List Json} (regular : ∀ j ∈ items, Regular j)
    (each : ∀ j ∈ items, ReadsBack j) : ReadsBack (.arr items) := by
  intro n r enough _
  rw [compact_arr] at enough ⊢
  simp only [List.length_append, List.length_cons, List.length_nil] at enough
  obtain ⟨n, rfl⟩ : ∃ k, n = k + 1 := ⟨n - 1, by omega⟩
  rw [readValue_eq_some_iff, List.cons_append, List.append_assoc, List.singleton_append]
  by_cases ne : items = []
  · subst ne
    exact .noItems (skipSpace_cons (by decide) _) (skipSpace_cons (by decide) _)
  · have read := readItems_join ne each n r (by omega)
    obtain ⟨j, js, rfl⟩ := List.exists_cons_of_ne_nil ne
    obtain ⟨u, t, text, starts⟩ := exists_compact_eq_cons (regular j List.mem_cons_self)
    obtain ⟨t', joined⟩ := Text.exists_join_eq_append (unit ',') (u :: t) (js.map compact)
    rw [List.map_cons, text, joined, List.cons_append, List.cons_append] at read ⊢
    exact .items (skipSpace_cons (by decide) _) (skipSpace_cons starts.1 _) starts.2 read

theorem readsBack_obj {fields : List (Text × Json)} (ordered : Fields.ofList fields = fields)
    (each : ∀ f ∈ fields, ReadsBack f.2) : ReadsBack (.obj fields) := by
  intro n r enough _
  rw [compact_obj] at enough ⊢
  simp only [List.length_append, List.length_cons, List.length_nil] at enough
  obtain ⟨n, rfl⟩ : ∃ k, n = k + 1 := ⟨n - 1, by omega⟩
  rw [readValue_eq_some_iff, List.cons_append, List.append_assoc, List.singleton_append]
  by_cases ne : fields = []
  · subst ne
    exact .noFields (skipSpace_cons (by decide) _) (skipSpace_cons (by decide) _)
  · have read := readMembers_join ne each n r (by omega)
    obtain ⟨f, fs, rfl⟩ := List.exists_cons_of_ne_nil ne
    obtain ⟨t', joined⟩ := Text.exists_join_eq_append (unit ',') (compactField f)
      (fs.map compactField)
    rw [List.map_cons, joined, compactField_eq, List.cons_append, List.cons_append] at read ⊢
    have value := ValueRead.fields (skipSpace_cons (by decide) _) (skipSpace_cons (by decide) _)
      (by decide) read
    rwa [ordered] at value

/-- A value is read back from its compact text, whatever follows it. -/
theorem readValue_compact {j : Json} (regular : Regular j) : ReadsBack j := by
  induction regular with
  | null => exact readsBack_word (u := unit 'n') rfl (by decide) (by decide) fun _ => rfl
  | bool b =>
    cases b with
    | true => exact readsBack_word (u := unit 't') rfl (by decide) (by decide) fun _ => rfl
    | false => exact readsBack_word (u := unit 'f') rfl (by decide) (by decide) fun _ => rfl
  | @num n spelled =>
    intro k r enough stop
    obtain ⟨u, t, text, lead⟩ := spelled.lead
    rw [compact, text] at enough ⊢
    rw [List.length_cons] at enough
    obtain ⟨k, rfl⟩ : ∃ i, k = i + 1 := ⟨k - 1, by omega⟩
    have read : readNumber (u :: (t ++ r)) = some (.num n, r) := by
      have whole := spelled.whole
      rw [text] at whole
      rw [← List.cons_append, readNumber_append stop, whole]
      rfl
    exact readValue_eq_some_iff.2
      (.number (skipSpace_cons (startsValue_of_lead lead).1 _) lead read)
  | str t =>
    intro n r enough _
    rw [compact, Text.quote] at enough ⊢
    rw [List.cons_append, List.length_cons] at enough
    obtain ⟨n, rfl⟩ : ∃ k, n = k + 1 := ⟨n - 1, by omega⟩
    rw [List.cons_append, List.cons_append, List.append_assoc, List.singleton_append]
    exact readValue_eq_some_iff.2 (.text (skipSpace_cons (by decide) _) (Text.unquote_escape t r))
  | arr regular each => exact readsBack_arr regular each
  | obj ordered _ each => exact readsBack_obj ordered each

/-- A regular value is read back from its compact text, also behind a gap. -/
theorem read_gap_compact {gap : Text} {j : Json} (blank : IsGap gap) (regular : Regular j) :
    read (gap ++ j.compact) = some j := by
  have value := readValue_compact regular (2 * (gap ++ j.compact).length + 2) []
    (by rw [List.length_append]; omega) nofun
  rw [List.append_nil] at value
  rw [read, readValue_gap blank, value]
  rfl

theorem read_compact {j : Json} (regular : Regular j) : read j.compact = some j :=
  have blank : IsGap [] := nofun
  read_gap_compact blank regular

end Reading

section Line

theorem not_control_escape (t : Text) : ∀ u ∈ Text.escape t, ¬u < 0x20 := by
  have hex : ∀ d, d < 16 → ¬Text.hexUnit d < 0x20 := by
    intro d small
    interval_cases d <;> decide
  have letter : ∀ l u, Text.escapedUnit? l = some u → ¬l < 0x20 := by
    intro l u value control
    have others : l ≠ unit '"' ∧ l ≠ unit '\\' ∧ l ≠ unit '/' ∧ l ≠ unit 'b' ∧ l ≠ unit 'f' ∧
        l ≠ unit 'n' ∧ l ≠ unit 'r' ∧ l ≠ unit 't' := by
      refine ⟨?_, ?_, ?_, ?_, ?_, ?_, ?_, ?_⟩ <;>
        · rintro rfl
          exact absurd control (by decide)
    simp [Text.escapedUnit?, others] at value
  induction t using Text.escape_induction with
  | nil => exact List.forall_mem_nil _
  | letter u l t e ascii single value ih =>
    rw [List.forall_mem_cons, List.forall_mem_cons]
    exact ⟨by decide, letter l u value, ih⟩
  | number u t e ih =>
    have bound := u.toNat_lt
    rw [List.forall_mem_append]
    refine ⟨?_, ih⟩
    simp only [Text.unicodeEscape, List.forall_mem_cons]
    exact ⟨by decide, by decide, hex _ (by omega), hex _ (by omega), hex _ (by omega),
      hex _ (by omega), List.forall_mem_nil _⟩
  | own u t e isOwn high low ih =>
    rw [List.forall_mem_cons]
    exact ⟨isOwn.2.2, ih⟩
  | pair u v t e high low ih =>
    rw [List.forall_mem_cons, List.forall_mem_cons]
    exact ⟨(Text.isOwn_of_surrogate (.inl high)).2.2, (Text.isOwn_of_surrogate (.inr low)).2.2, ih⟩

theorem feed_not_mem_quote (t : Text) : unit '\n' ∉ t.quote := by
  have quote : unit '\n' ≠ unit '"' := by decide
  have plain : unit '\n' ∉ Text.escape t := fun member =>
    not_control_escape t _ member (by decide)
  simp [Text.quote, plain, quote]

/-- The compact text of a regular value is one line. -/
theorem feed_not_mem_compact {j : Json} (regular : Regular j) : unit '\n' ∉ compact j := by
  induction regular with
  | null => decide
  | bool b => cases b <;> decide
  | num spelled =>
    intro member
    exact absurd (spelled.ascii _ member).1 (by decide)
  | str t => exact feed_not_mem_quote t
  | arr _ each =>
    intro member
    rw [compact_arr, List.mem_cons, List.mem_append, List.mem_singleton] at member
    rcases member with same | joined | same
    · exact absurd same (by decide)
    · rcases Text.mem_join joined with same | ⟨t, text, inside⟩
      · exact absurd same (by decide)
      · obtain ⟨j, item, rfl⟩ := List.mem_map.1 text
        exact each j item inside
    · exact absurd same (by decide)
  | obj _ _ each =>
    intro member
    rw [compact_obj, List.mem_cons, List.mem_append, List.mem_singleton] at member
    rcases member with same | joined | same
    · exact absurd same (by decide)
    · rcases Text.mem_join joined with same | ⟨t, text, inside⟩
      · exact absurd same (by decide)
      · obtain ⟨f, field, rfl⟩ := List.mem_map.1 text
        rw [compactField, fieldText, List.mem_append, List.mem_append] at inside
        rcases inside with (key | colon) | value
        · exact feed_not_mem_quote f.1 key
        · exact absurd colon (by decide)
        · exact each f field value
    · exact absurd same (by decide)

/-- The compact text of a regular value holds no lone surrogate. -/
theorem wellFormed_compact {j : Json} (regular : Regular j) : j.compact.wellFormed = true := by
  induction regular with
  | null => rfl
  | bool b => cases b <;> rfl
  | num spelled =>
    exact Text.wellFormed_of_lt fun u member => (spelled.ascii u member).2.trans (by decide)
  | str t => exact Text.wellFormed_quote t
  | arr _ each =>
    rw [compact, compactItems_eq]
    exact wellFormed_bracketed rfl rfl (List.forall_mem_map.2 each)
  | obj _ _ each =>
    rw [compact, compactFields_eq]
    refine wellFormed_bracketed rfl rfl (List.forall_mem_map.2 fun f field => ?_)
    exact wellFormed_fieldText f.1 (each f field)

end Line

end RequestCompiler.Json
