import RequestCompiler.Proofs.Json.RoundTrip

/-!
# An object behind a torn text

The start of a text may have been cut off in the middle of a value. If a whole object comes next, the
two together are no value, unless the start is a gap (`isGap_of_read`): what is left open by the start
is never closed by the object. A string that the start leaves open ends at the first quote of the
object, and its first key then stands where no key can; all else that is left open still needs a
bracket or a brace behind the object, where the text ends.
-/

namespace RequestCompiler.Json

/-- The text is that of an object with a key that starts as no other part of a text does. -/
structure KeyedObject (l : Text) : Prop where
  opens : ∃ w k, l = unit '{' :: unit '"' :: w :: k ∧ isSpace w = false ∧
    w ∉ [unit ',', unit ':', unit ']', unit '}']
  whole : ∀ n j s, readValue n l = some (j, s) → s = []

/-- The compact text of an object is such a text, if its first key starts with a unit of its own. -/
theorem keyedObject_compact {f : Text × Json} {fs : List (Text × Json)}
    (regular : Regular (.obj (f :: fs))) {w : UInt16} {t : Text} (key : Text.escape f.1 = w :: t)
    (solid : isSpace w = false) (plain : w ∉ [unit ',', unit ':', unit ']', unit '}']) :
    KeyedObject (compact (.obj (f :: fs))) where
  opens := by
    obtain ⟨r, joined⟩ := Text.exists_join_eq_append (unit ',') (compactField f)
      (fs.map compactField)
    refine ⟨w, t ++ unit '"' :: unit ':' :: compact f.2 ++ r ++ [unit '}'], ?_, solid, plain⟩
    rw [compact_obj, List.map_cons, joined, compactField_eq, key]
    simp only [List.cons_append, List.append_assoc]
  whole n j s read := by
    have own := readValue_compact regular _ [] le_rfl nofun
    rw [List.append_nil] at own
    exact (readValue_unique read own).2

/-- What is left of a text with the object at its end: the object is still to come, or it was entered
in the middle of a string and left at its first quote. -/
inductive Left (l : Text) : Text → Prop
  | before (r : Text) : Left l (r ++ l)
  | inside : Left l (l.drop 2)

variable {l : Text}

section Pieces

theorem KeyedObject.stops (object : KeyedObject l) : ∀ u ∈ l.head?, StopsNumeral u := by
  obtain ⟨w, k, rfl, -⟩ := object.opens
  intro u first
  obtain rfl := Option.some.inj first
  decide

/-- Spaces are skipped up to the object at most. -/
theorem KeyedObject.skipSpace_append (object : KeyedObject l) (r : Text) :
    skipSpace (r ++ l) = skipSpace r ++ l := by
  obtain ⟨w, k, rfl, -⟩ := object.opens
  rw [skipSpace, List.dropWhile_append, skipSpace]
  cases r.dropWhile isSpace with
  | nil => exact skipSpace_cons (by decide) _
  | cons v r' => rfl

theorem KeyedObject.skipSpace_ne_nil (object : KeyedObject l) {s : Text} (left : Left l s) :
    skipSpace s ≠ [] := by
  cases left with
  | before r =>
    rw [object.skipSpace_append]
    obtain ⟨w, k, rfl, -⟩ := object.opens
    exact List.append_ne_nil_of_right_ne_nil _ (List.cons_ne_nil _ _)
  | inside =>
    obtain ⟨w, k, rfl, solid, -⟩ := object.opens
    exact (skipSpace_cons solid k).symm ▸ List.cons_ne_nil _ _

/-- A unit that comes next and does not open the object stands in front of it. -/
theorem KeyedObject.exists_of_next (object : KeyedObject l) {r s : Text} {u : UInt16}
    (next : skipSpace (r ++ l) = u :: s) (other : u ≠ unit '{') : ∃ r', s = r' ++ l := by
  rw [object.skipSpace_append] at next
  cases rest : skipSpace r with
  | nil =>
    obtain ⟨w, k, rfl, -⟩ := object.opens
    rw [rest] at next
    exact absurd (List.cons.inj next).1.symm other
  | cons v r' =>
    rw [rest] at next
    exact ⟨r', (List.cons.inj next).2.symm⟩

/-- Nothing that goes on with a list or an object follows, unless the object is still to come. -/
theorem KeyedObject.before_of_left (object : KeyedObject l) {s r : Text} {u : UInt16}
    (left : Left l s) (next : skipSpace s = u :: r)
    (delimiter : u ∈ [unit ',', unit ':', unit ']', unit '}']) : ∃ r', r = r' ++ l := by
  cases left with
  | before r' =>
    have other : u ≠ unit '{' := by
      rintro rfl
      exact absurd delimiter (by decide)
    exact object.exists_of_next next other
  | inside =>
    obtain ⟨w, k, rfl, solid, plain⟩ := object.opens
    have first : skipSpace (w :: k) = u :: r := next
    rw [skipSpace_cons solid] at first
    obtain ⟨rfl, -⟩ := List.cons.inj first
    exact absurd delimiter plain

/-- A string that starts before the object ends before it or at its first quote. -/
theorem KeyedObject.left_of_unquoteFrom (object : KeyedObject l) {state : Text.QuoteState}
    {b t s : Text} (read : Text.unquoteFrom state (b ++ l) = some (t, s)) : Left l s := by
  induction b generalizing state t with
  | nil =>
    obtain ⟨w, k, rfl, -⟩ := object.opens
    rw [List.nil_append] at read
    cases state with
    | plain =>
      have closed : Text.unquoteFrom .plain (unit '"' :: w :: k) = some ([], w :: k) := rfl
      have brace : Text.IsOwn (unit '{') := ⟨by decide, by decide, by decide⟩
      rw [Text.unquoteFrom_own brace, closed] at read
      obtain ⟨-, rfl⟩ := Prod.mk.inj (Option.some.inj read)
      exact .inside
    | escaped => cases read
    | code value left => cases read
  | cons u b ih =>
    rw [List.cons_append] at read
    cases state with
    | plain =>
      rw [Text.unquoteFrom] at read
      split_ifs at read
      · obtain ⟨-, rfl⟩ := Prod.mk.inj (Option.some.inj read)
        exact .before b
      · exact ih read
      · obtain ⟨p, rest, same⟩ := Option.map_eq_some_iff.1 read
        obtain ⟨-, rfl⟩ := Prod.mk.inj same
        exact ih rest
    | escaped =>
      rw [Text.unquoteFrom] at read
      split_ifs at read
      · exact ih read
      · cases letter : Text.escapedUnit? u with
        | none => simp [letter] at read
        | some v =>
          simp only [letter, Option.map_eq_some_iff, Prod.mk.injEq] at read
          obtain ⟨p, rest, -, rfl⟩ := read
          exact ih rest
    | code value left =>
      rw [Text.unquoteFrom] at read
      cases digit : Text.hexDigit? u with
      | none => simp [digit] at read
      | some d =>
        simp only [digit] at read
        split_ifs at read
        · obtain ⟨p, rest, same⟩ := Option.map_eq_some_iff.1 read
          obtain ⟨-, rfl⟩ := Prod.mk.inj same
          exact ih rest
        · exact ih read

theorem KeyedObject.exists_of_isPrefixOf (object : KeyedObject l) {word r : Text}
    (plain : unit '{' ∉ word) (lead : word.isPrefixOf (r ++ l) = true) : ∃ r', r = word ++ r' := by
  induction word generalizing r with
  | nil => exact ⟨r, rfl⟩
  | cons u word ih =>
    rw [List.mem_cons, not_or] at plain
    cases r with
    | nil =>
      obtain ⟨w, k, rfl, -⟩ := object.opens
      rw [List.nil_append, List.isPrefixOf_cons_cons, Bool.and_eq_true, beq_iff_eq] at lead
      exact absurd lead.1.symm plain.1
    | cons v r =>
      rw [List.cons_append, List.isPrefixOf_cons_cons, Bool.and_eq_true, beq_iff_eq] at lead
      obtain ⟨rfl, rest⟩ := lead
      obtain ⟨r', rfl⟩ := ih plain.2 rest
      exact ⟨r', rfl⟩

theorem KeyedObject.left_of_readWord (object : KeyedObject l) {r s : Text} {j : Json}
    (read : readWord (r ++ l) = some (j, s)) : Left l s := by
  unfold readWord at read
  split_ifs at read with t f n
  · obtain ⟨r', rfl⟩ := object.exists_of_isPrefixOf (by decide) t
    obtain ⟨-, rfl⟩ := Prod.mk.inj (Option.some.inj read)
    exact .before r'
  · obtain ⟨r', rfl⟩ := object.exists_of_isPrefixOf (by decide) f
    obtain ⟨-, rfl⟩ := Prod.mk.inj (Option.some.inj read)
    exact .before r'
  · obtain ⟨r', rfl⟩ := object.exists_of_isPrefixOf (by decide) n
    obtain ⟨-, rfl⟩ := Prod.mk.inj (Option.some.inj read)
    exact .before r'

theorem KeyedObject.left_of_readNumber (object : KeyedObject l) {r s : Text} {j : Json}
    (read : readNumber (r ++ l) = some (j, s)) : Left l s := by
  rw [readNumber_append object.stops, Option.map_eq_some_iff] at read
  obtain ⟨p, -, same⟩ := read
  obtain ⟨-, rfl⟩ := Prod.mk.inj same
  exact .before p.2

end Pieces

section Readers

/-- What the readers with a count leave of a text with the object at its end: a value that starts
before the object ends before it or in the string that the object was entered in, and a list or an
object that starts before it ends before it. -/
structure Leaves (l : Text) (n : Nat) : Prop where
  values : ∀ r j s, readValue n (r ++ l) = some (j, s) → IsGap r ∨ Left l s
  items : ∀ r js s, readItems n (r ++ l) = some (js, s) → ∃ r', s = r' ++ l
  members : ∀ r ps s, readMembers n (r ++ l) = some (ps, s) → ∃ r', s = r' ++ l

variable {n : Nat} {r rest s : Text} {u : UInt16} {j : Json} (below : Leaves l n)
  (object : KeyedObject l)
include below object

/-- A value in a list or an object is followed by something, so the object does not end it. -/
theorem Leaves.followed (value : readValue n (r ++ l) = some (j, rest))
    (next : skipSpace rest = u :: s) (delimiter : u ∈ [unit ',', unit ':', unit ']', unit '}']) :
    ∃ r', s = r' ++ l := by
  rcases below.values r j rest value with blank | left
  · rw [readValue_gap blank] at value
    rw [object.whole n j rest value] at next
    cases next
  · exact object.before_of_left left next delimiter

theorem Leaves.followed_field {key : Text} (field : FieldRead n (r ++ l) key j rest)
    (next : skipSpace rest = u :: s) (delimiter : u ∈ [unit ',', unit ':', unit ']', unit '}']) :
    ∃ r', s = r' ++ l := by
  obtain ⟨body, behind, v, opening, unquoted, colon, value⟩ := field
  obtain ⟨b, rfl⟩ := object.exists_of_next opening (by decide)
  have left := object.left_of_unquoteFrom unquoted
  obtain ⟨v', rfl⟩ := object.before_of_left left colon (by decide)
  exact below.followed object value next delimiter

theorem Leaves.left_of_valueRead (solid : ¬IsGap r) (read : ValueRead n (r ++ l) j s) :
    Left l s := by
  obtain ⟨v, r', first⟩ := List.exists_cons_of_ne_nil (mt skipSpace_eq_nil_iff.1 solid)
  have lead : skipSpace (r ++ l) = v :: (r' ++ l) := by
    rw [object.skipSpace_append, first]
    rfl
  cases read with
  | noFields opening closing =>
    obtain ⟨-, rfl⟩ := List.cons.inj (lead.symm.trans opening)
    obtain ⟨r'', rfl⟩ := object.exists_of_next closing (by decide)
    exact .before r''
  | fields opening inner more read =>
    obtain ⟨-, rfl⟩ := List.cons.inj (lead.symm.trans opening)
    rw [← inner, object.skipSpace_append] at read
    obtain ⟨r'', rfl⟩ := below.members _ _ s read
    exact .before r''
  | noItems opening closing =>
    obtain ⟨-, rfl⟩ := List.cons.inj (lead.symm.trans opening)
    obtain ⟨r'', rfl⟩ := object.exists_of_next closing (by decide)
    exact .before r''
  | items opening inner more read =>
    obtain ⟨-, rfl⟩ := List.cons.inj (lead.symm.trans opening)
    rw [← inner, object.skipSpace_append] at read
    obtain ⟨r'', rfl⟩ := below.items _ _ s read
    exact .before r''
  | text opening read =>
    obtain ⟨-, rfl⟩ := List.cons.inj (lead.symm.trans opening)
    exact object.left_of_unquoteFrom read
  | number first' _ read =>
    rw [← first', object.skipSpace_append] at read
    exact object.left_of_readNumber read
  | word first' _ read =>
    rw [← first', object.skipSpace_append] at read
    exact object.left_of_readWord read

theorem Leaves.exists_of_itemsRead {js : List Json} (read : ItemsRead n (r ++ l) js s) :
    ∃ r', s = r' ++ l := by
  cases read with
  | last value closing => exact below.followed object value closing (by decide)
  | cons value comma others =>
    obtain ⟨r', rfl⟩ := below.followed object value comma (by decide)
    exact below.items r' _ s others

theorem Leaves.exists_of_membersRead {ps : List (Text × Json)}
    (read : MembersRead n (r ++ l) ps s) : ∃ r', s = r' ++ l := by
  cases read with
  | last field closing => exact below.followed_field object field closing (by decide)
  | cons field comma others =>
    obtain ⟨r', rfl⟩ := below.followed_field object field comma (by decide)
    exact below.members r' _ s others

omit below

theorem KeyedObject.leaves (n : Nat) : Leaves l n := by
  induction n with
  | zero => exact ⟨nofun, nofun, nofun⟩
  | succ n ih =>
    refine ⟨fun r j s read => ?_, fun r js s read => ?_, fun r ps s read => ?_⟩
    · by_cases blank : IsGap r
      · exact .inl blank
      · exact .inr (ih.left_of_valueRead object blank (readValue_eq_some_iff.1 read))
    · exact ih.exists_of_itemsRead object (readItems_eq_some_iff.1 read)
    · exact ih.exists_of_membersRead object (readMembers_eq_some_iff.1 read)

end Readers

/-- A text in front of the object is read together with it only if it is a gap. -/
theorem KeyedObject.isGap_of_read (object : KeyedObject l) {r : Text} {j : Json}
    (answer : read (r ++ l) = some j) : IsGap r := by
  unfold read at answer
  split at answer
  · rename_i i s value
    rcases (object.leaves _).values r i s value with blank | left
    · exact blank
    · have more : (skipSpace s).isEmpty ≠ true := by simpa using object.skipSpace_ne_nil left
      rw [if_neg more] at answer
      cases answer
  · cases answer

end RequestCompiler.Json
