import Mathlib.Data.List.TakeWhile
import RequestCompiler.Json.Reader

/-!
# How a value is read

`ValueRead`, `ItemsRead` and `MembersRead` list the ways in which the three readers come to an
answer, and each reader answers in these ways and in no others (`readValue_eq_some_iff` and its
companions). A larger count never changes an answer (`readValue_mono`), and a numeral ends where no
unit of a numeral follows (`scan_append`).
-/

namespace RequestCompiler.Json

section Space

theorem isSpace_iff {u : UInt16} : isSpace u = true ↔ u = 0x20 ∨ u = 9 ∨ u = 10 ∨ u = 13 := by
  simp [isSpace, or_assoc]

/-- Nothing but spaces, tabs and line ends. -/
def IsGap (t : Text) : Prop := ∀ u ∈ t, isSpace u = true

theorem IsGap.skipSpace_append {gap : Text} (blank : IsGap gap) (t : Text) :
    skipSpace (gap ++ t) = skipSpace t := by
  have passed : gap.dropWhile isSpace = [] := List.dropWhile_eq_nil_iff.2 blank
  rw [skipSpace, List.dropWhile_append, passed]
  rfl

theorem skipSpace_cons {u : UInt16} (solid : isSpace u = false) (t : Text) :
    skipSpace (u :: t) = u :: t :=
  List.dropWhile_cons_of_neg (by simp [solid])

theorem skipSpace_eq_nil_iff {t : Text} : skipSpace t = [] ↔ IsGap t := List.dropWhile_eq_nil_iff

end Space

section Number

/-- A unit that no numeral goes on with. -/
def StopsNumeral (u : UInt16) : Prop :=
  Numeral.isDigit u = false ∧ u ∉ [unit '+', unit '-', unit '.', unit 'e', unit 'E']

instance (u : UInt16) : Decidable (StopsNumeral u) := inferInstanceAs (Decidable (_ ∧ _))

variable {r : Text}

theorem takeWhile_digits_append (stop : ∀ u ∈ r.head?, StopsNumeral u) (t : Text) :
    (t ++ r).takeWhile Numeral.isDigit = t.takeWhile Numeral.isDigit := by
  induction t with
  | nil =>
    cases r with
    | nil => rfl
    | cons u r => exact List.takeWhile_cons_of_neg (by simp [(stop u rfl).1])
  | cons v t ih =>
    rw [List.cons_append, List.takeWhile_cons, List.takeWhile_cons, ih]

theorem dropWhile_digits_append (stop : ∀ u ∈ r.head?, StopsNumeral u) (t : Text) :
    (t ++ r).dropWhile Numeral.isDigit = t.dropWhile Numeral.isDigit ++ r := by
  induction t with
  | nil =>
    cases r with
    | nil => rfl
    | cons u r => exact List.dropWhile_cons_of_neg (by simp [(stop u rfl).1])
  | cons v t ih =>
    rw [List.cons_append, List.dropWhile_cons, List.dropWhile_cons, ih]
    split <;> rfl

theorem takeSign_append (stop : ∀ u ∈ r.head?, StopsNumeral u) (t : Text) :
    Numeral.takeSign (t ++ r) = ((Numeral.takeSign t).1, (Numeral.takeSign t).2 ++ r) := by
  cases t with
  | nil =>
    cases r with
    | nil => rfl
    | cons u r =>
      have other := (stop u rfl).2
      simp only [List.mem_cons, not_or] at other
      simp [Numeral.takeSign, other.1, other.2.1]
  | cons v t =>
    rw [List.cons_append, Numeral.takeSign, Numeral.takeSign]
    split <;> rfl

theorem takeFraction_append (stop : ∀ u ∈ r.head?, StopsNumeral u) (t : Text) :
    Numeral.takeFraction (t ++ r) =
      ((Numeral.takeFraction t).1, (Numeral.takeFraction t).2 ++ r) := by
  cases t with
  | nil =>
    cases r with
    | nil => rfl
    | cons u r =>
      have other := (stop u rfl).2
      simp only [List.mem_cons, not_or] at other
      simp [Numeral.takeFraction, other.2.2.1]
  | cons v t =>
    rw [List.cons_append, Numeral.takeFraction, Numeral.takeFraction, takeWhile_digits_append stop,
      dropWhile_digits_append stop]
    split <;> rfl

theorem takeExponent_append (stop : ∀ u ∈ r.head?, StopsNumeral u) (t : Text) :
    Numeral.takeExponent (t ++ r) =
      ((Numeral.takeExponent t).1, (Numeral.takeExponent t).2 ++ r) := by
  cases t with
  | nil =>
    cases r with
    | nil => rfl
    | cons u r =>
      have other := (stop u rfl).2
      simp only [List.mem_cons, not_or] at other
      simp [Numeral.takeExponent, other.2.2.2]
  | cons v t =>
    rw [List.cons_append, Numeral.takeExponent, Numeral.takeExponent, takeSign_append stop]
    simp only [takeWhile_digits_append stop, dropWhile_digits_append stop]
    split
    · split <;> rfl
    · rfl

/-- What follows a numeral does not change how it is read. -/
theorem scan_append (stop : ∀ u ∈ r.head?, StopsNumeral u) (t : Text) :
    Numeral.scan (t ++ r) = ((Numeral.scan t).1, (Numeral.scan t).2 ++ r) := by
  simp only [Numeral.scan, takeSign_append stop, takeWhile_digits_append stop,
    dropWhile_digits_append stop, takeFraction_append stop, takeExponent_append stop]

theorem readNumber_append (stop : ∀ u ∈ r.head?, StopsNumeral u) (t : Text) :
    readNumber (t ++ r) = (readNumber t).map fun p => (p.1, p.2 ++ r) := by
  simp only [readNumber, scan_append stop]
  split <;> rfl

end Number

section Readers

variable {n : Nat} {t s : Text} {j : Json} {js : List Json} {ps : List (Text × Json)}

/-- The ways in which a value is read, where `n` is the count for what is inside of it. -/
inductive ValueRead (n : Nat) (t : Text) : Json → Text → Prop
  | noFields {r s : Text} (opening : skipSpace t = unit '{' :: r)
      (closing : skipSpace r = unit '}' :: s) : ValueRead n t (.obj []) s
  | fields {r r' s : Text} {v : UInt16} {ps : List (Text × Json)}
      (opening : skipSpace t = unit '{' :: r) (inner : skipSpace r = v :: r')
      (more : v ≠ unit '}') (members : readMembers n (v :: r') = some (ps, s)) :
      ValueRead n t (.obj (Fields.ofList ps)) s
  | noItems {r s : Text} (opening : skipSpace t = unit '[' :: r)
      (closing : skipSpace r = unit ']' :: s) : ValueRead n t (.arr []) s
  | items {r r' s : Text} {v : UInt16} {js : List Json} (opening : skipSpace t = unit '[' :: r)
      (inner : skipSpace r = v :: r') (more : v ≠ unit ']')
      (items : readItems n (v :: r') = some (js, s)) : ValueRead n t (.arr js) s
  | text {r k s : Text} (opening : skipSpace t = unit '"' :: r) (read : Text.unquote r = some (k, s)) :
      ValueRead n t (.str k) s
  | number {u : UInt16} {r s : Text} {j : Json} (first : skipSpace t = u :: r)
      (lead : u = unit '-' ∨ Numeral.isDigit u = true) (read : readNumber (u :: r) = some (j, s)) :
      ValueRead n t j s
  | word {u : UInt16} {r s : Text} {j : Json} (first : skipSpace t = u :: r)
      (lead : u ≠ unit '{' ∧ u ≠ unit '[' ∧ u ≠ unit '"' ∧ ¬(u = unit '-' ∨ Numeral.isDigit u = true))
      (read : readWord (u :: r) = some (j, s)) : ValueRead n t j s

/-- The ways in which items are read up to the closing bracket. -/
inductive ItemsRead (n : Nat) (t : Text) : List Json → Text → Prop
  | last {rest s : Text} {j : Json} (value : readValue n t = some (j, rest))
      (closing : skipSpace rest = unit ']' :: s) : ItemsRead n t [j] s
  | cons {rest r s : Text} {j : Json} {js : List Json} (value : readValue n t = some (j, rest))
      (comma : skipSpace rest = unit ',' :: r) (others : readItems n r = some (js, s)) :
      ItemsRead n t (j :: js) s

/-- A key with its colon is read, and then a value. -/
def FieldRead (n : Nat) (t key : Text) (j : Json) (rest : Text) : Prop :=
  ∃ body behind r, skipSpace t = unit '"' :: body ∧ Text.unquote body = some (key, behind) ∧
    skipSpace behind = unit ':' :: r ∧ readValue n r = some (j, rest)

/-- The ways in which fields are read up to the closing brace. -/
inductive MembersRead (n : Nat) (t : Text) : List (Text × Json) → Text → Prop
  | last {key rest s : Text} {j : Json} (field : FieldRead n t key j rest)
      (closing : skipSpace rest = unit '}' :: s) : MembersRead n t [(key, j)] s
  | cons {key rest r s : Text} {j : Json} {ps : List (Text × Json)} (field : FieldRead n t key j rest)
      (comma : skipSpace rest = unit ',' :: r) (others : readMembers n r = some (ps, s)) :
      MembersRead n t ((key, j) :: ps) s

section Equations

variable {r : Text}

theorem readValue_object (opening : skipSpace t = unit '{' :: r) :
    readValue (n + 1) t =
      match skipSpace r with
      | [] => none
      | v :: s =>
        if v = unit '}' then some (.obj [], s)
        else (readMembers n (v :: s)).map fun p => (.obj (Fields.ofList p.1), p.2) := by
  rw [readValue, opening]
  rfl

theorem readValue_list (opening : skipSpace t = unit '[' :: r) :
    readValue (n + 1) t =
      match skipSpace r with
      | [] => none
      | v :: s =>
        if v = unit ']' then some (.arr [], s)
        else (readItems n (v :: s)).map fun p => (.arr p.1, p.2) := by
  rw [readValue, opening]
  rfl

theorem readValue_text (opening : skipSpace t = unit '"' :: r) :
    readValue (n + 1) t = (Text.unquote r).map fun p => (.str p.1, p.2) := by
  rw [readValue, opening]
  rfl

theorem readValue_number {u : UInt16} (first : skipSpace t = u :: r)
    (lead : u = unit '-' ∨ Numeral.isDigit u = true) : readValue (n + 1) t = readNumber (u :: r) := by
  have apart : ∀ v, v ≠ unit '-' → Numeral.isDigit v = false → u ≠ v := by
    rintro v sign digit rfl
    rcases lead with same | same
    · exact sign same
    · exact nomatch digit.symm.trans same
  have brace : u ≠ unit '{' := apart _ (by decide) (by decide)
  have bracket : u ≠ unit '[' := apart _ (by decide) (by decide)
  have quote : u ≠ unit '"' := apart _ (by decide) (by decide)
  simp only [readValue, first, if_neg brace, if_neg bracket, if_neg quote, if_pos lead]

theorem readValue_word {u : UInt16} (first : skipSpace t = u :: r)
    (lead : u ≠ unit '{' ∧ u ≠ unit '[' ∧ u ≠ unit '"' ∧ ¬(u = unit '-' ∨ Numeral.isDigit u = true)) :
    readValue (n + 1) t = readWord (u :: r) := by
  obtain ⟨brace, bracket, quote, number⟩ := lead
  simp only [readValue, first, if_neg brace, if_neg bracket, if_neg quote, if_neg number]

theorem valueRead_of_object (opening : skipSpace t = unit '{' :: r)
    (read : readValue (n + 1) t = some (j, s)) : ValueRead n t j s := by
  rw [readValue_object opening] at read
  cases inner : skipSpace r with
  | nil => simp [inner] at read
  | cons v r' =>
    by_cases closing : v = unit '}'
    · subst closing
      simp only [inner, if_true, Option.some.injEq, Prod.mk.injEq] at read
      obtain ⟨rfl, rfl⟩ := read
      exact .noFields opening inner
    · simp only [inner, if_neg closing, Option.map_eq_some_iff, Prod.mk.injEq] at read
      obtain ⟨p, members, rfl, rfl⟩ := read
      exact .fields opening inner closing members

theorem valueRead_of_list (opening : skipSpace t = unit '[' :: r)
    (read : readValue (n + 1) t = some (j, s)) : ValueRead n t j s := by
  rw [readValue_list opening] at read
  cases inner : skipSpace r with
  | nil => simp [inner] at read
  | cons v r' =>
    by_cases closing : v = unit ']'
    · subst closing
      simp only [inner, if_true, Option.some.injEq, Prod.mk.injEq] at read
      obtain ⟨rfl, rfl⟩ := read
      exact .noItems opening inner
    · simp only [inner, if_neg closing, Option.map_eq_some_iff, Prod.mk.injEq] at read
      obtain ⟨p, items, rfl, rfl⟩ := read
      exact .items opening inner closing items

end Equations

theorem readValue_eq_some_iff : readValue (n + 1) t = some (j, s) ↔ ValueRead n t j s := by
  constructor
  · intro read
    cases first : skipSpace t with
    | nil => simp [readValue, first] at read
    | cons u r =>
      by_cases brace : u = unit '{'
      · exact valueRead_of_object (brace ▸ first) read
      by_cases bracket : u = unit '['
      · exact valueRead_of_list (bracket ▸ first) read
      by_cases quote : u = unit '"'
      · subst quote
        simp only [readValue_text first, Option.map_eq_some_iff, Prod.mk.injEq] at read
        obtain ⟨p, unquoted, rfl, rfl⟩ := read
        exact .text first unquoted
      by_cases lead : u = unit '-' ∨ Numeral.isDigit u = true
      · exact .number first lead (readValue_number first lead ▸ read)
      · rw [readValue_word first ⟨brace, bracket, quote, lead⟩] at read
        exact .word first ⟨brace, bracket, quote, lead⟩ read
  · intro read
    cases read with
    | noFields opening closing => simp [readValue_object opening, closing]
    | fields opening inner more members =>
      simp [readValue_object opening, inner, if_neg more, members]
    | noItems opening closing => simp [readValue_list opening, closing]
    | items opening inner more items => simp [readValue_list opening, inner, if_neg more, items]
    | text opening read => simp [readValue_text opening, read]
    | number first lead read => rw [readValue_number first lead, read]
    | word first lead read => rw [readValue_word first lead, read]

section More

/-- What is read behind an item: a comma and further items, or the unit that closes them. -/
def moreRead {α : Type} (further : Text → Option (List α × Text)) (close : UInt16) (x : α) :
    Text → Option (List α × Text)
  | [] => none
  | u :: r =>
    if u = unit ',' then (further r).map fun p => (x :: p.1, p.2)
    else if u = close then some ([x], r)
    else none

theorem moreRead_eq_some_iff {α : Type} {further : Text → Option (List α × Text)} {close : UInt16}
    {x : α} {xs : List α} (apart : close ≠ unit ',') :
    moreRead further close x t = some (xs, s) ↔
      t = close :: s ∧ xs = [x] ∨
        ∃ r ys, t = unit ',' :: r ∧ further r = some (ys, s) ∧ xs = x :: ys := by
  cases t with
  | nil => simp [moreRead]
  | cons u r =>
    rw [moreRead]
    by_cases comma : u = unit ','
    · subst comma
      rw [if_pos rfl, Option.map_eq_some_iff]
      constructor
      · rintro ⟨p, others, same⟩
        obtain ⟨rfl, rfl⟩ := Prod.mk.inj same
        exact .inr ⟨r, p.1, rfl, others, rfl⟩
      · rintro (⟨closing, -⟩ | ⟨r', ys, same, others, rfl⟩)
        · exact absurd (List.cons.inj closing).1.symm apart
        · obtain ⟨-, rfl⟩ := List.cons.inj same
          exact ⟨(ys, s), others, rfl⟩
    · by_cases closing : u = close
      · subst closing
        simp [comma, eq_comm, and_comm]
      · simp [comma, closing]

theorem readItems_succ :
    readItems (n + 1) t =
      (readValue n t).bind fun p => moreRead (readItems n) (unit ']') p.1 (skipSpace p.2) := by
  rw [readItems]
  cases readValue n t with
  | none => rfl
  | some p => cases skipSpace p.2 <;> rfl

theorem readMembers_of_field {key rest : Text} (field : FieldRead n t key j rest) :
    readMembers (n + 1) t = moreRead (readMembers n) (unit '}') (key, j) (skipSpace rest) := by
  obtain ⟨body, behind, r, opening, unquoted, colon, value⟩ := field
  simp only [readMembers, opening, if_true, unquoted, colon, value]
  cases skipSpace rest <;> rfl

theorem exists_field (read : readMembers (n + 1) t = some (ps, s)) :
    ∃ key j rest, FieldRead n t key j rest := by
  rw [readMembers] at read
  cases opening : skipSpace t with
  | nil => simp [opening] at read
  | cons q body =>
    by_cases quote : q = unit '"'
    · subst quote
      cases unquoted : Text.unquote body with
      | none => simp [opening, unquoted] at read
      | some k =>
        cases middle : skipSpace k.2 with
        | nil => simp [opening, unquoted, middle] at read
        | cons c r =>
          by_cases colon : c = unit ':'
          · subst colon
            cases value : readValue n r with
            | none => simp [opening, unquoted, middle, value] at read
            | some p => exact ⟨k.1, p.1, p.2, body, k.2, r, opening, unquoted, middle, value⟩
          · simp [opening, unquoted, middle, colon] at read
    · simp [opening, quote] at read

end More

theorem readItems_eq_some_iff : readItems (n + 1) t = some (js, s) ↔ ItemsRead n t js s := by
  have apart : unit ']' ≠ unit ',' := by decide
  constructor
  · intro read
    rw [readItems_succ, Option.bind_eq_some_iff] at read
    obtain ⟨p, value, more⟩ := read
    rcases (moreRead_eq_some_iff apart).1 more with ⟨closing, rfl⟩ | ⟨r, js, comma, others, rfl⟩
    · exact .last value closing
    · exact .cons value comma others
  · intro read
    rw [readItems_succ]
    cases read with
    | last value closing =>
      rw [value]
      exact (moreRead_eq_some_iff apart).2 (.inl ⟨closing, rfl⟩)
    | cons value comma others =>
      rw [value]
      exact (moreRead_eq_some_iff apart).2 (.inr ⟨_, _, comma, others, rfl⟩)

theorem readMembers_eq_some_iff : readMembers (n + 1) t = some (ps, s) ↔ MembersRead n t ps s := by
  have apart : unit '}' ≠ unit ',' := by decide
  constructor
  · intro read
    obtain ⟨key, j, rest, field⟩ := exists_field read
    rw [readMembers_of_field field] at read
    rcases (moreRead_eq_some_iff apart).1 read with ⟨closing, rfl⟩ | ⟨r, ps, comma, others, rfl⟩
    · exact .last field closing
    · exact .cons field comma others
  · intro read
    cases read with
    | last field closing =>
      rw [readMembers_of_field field]
      exact (moreRead_eq_some_iff apart).2 (.inl ⟨closing, rfl⟩)
    | cons field comma others =>
      rw [readMembers_of_field field]
      exact (moreRead_eq_some_iff apart).2 (.inr ⟨_, _, comma, others, rfl⟩)

end Readers

/-- A larger count changes no answer. -/
theorem read_mono (n : Nat) :
    (∀ t j s, readValue n t = some (j, s) → readValue (n + 1) t = some (j, s)) ∧
      (∀ t js s, readItems n t = some (js, s) → readItems (n + 1) t = some (js, s)) ∧
        ∀ t ps s, readMembers n t = some (ps, s) → readMembers (n + 1) t = some (ps, s) := by
  induction n with
  | zero => exact ⟨nofun, nofun, nofun⟩
  | succ n ih =>
    obtain ⟨values, items, members⟩ := ih
    have fields : ∀ t key j rest, FieldRead n t key j rest → FieldRead (n + 1) t key j rest := by
      rintro t key j rest ⟨body, behind, r, opening, unquoted, colon, value⟩
      exact ⟨body, behind, r, opening, unquoted, colon, values _ _ _ value⟩
    refine ⟨fun t j s read => ?_, fun t js s read => ?_, fun t ps s read => ?_⟩
    · rw [readValue_eq_some_iff] at read ⊢
      cases read with
      | noFields opening closing => exact .noFields opening closing
      | fields opening inner more read => exact .fields opening inner more (members _ _ _ read)
      | noItems opening closing => exact .noItems opening closing
      | items opening inner more read => exact .items opening inner more (items _ _ _ read)
      | text opening read => exact .text opening read
      | number first lead read => exact .number first lead read
      | word first lead read => exact .word first lead read
    · rw [readItems_eq_some_iff] at read ⊢
      cases read with
      | last value closing => exact .last (values _ _ _ value) closing
      | cons value comma others => exact .cons (values _ _ _ value) comma (items _ _ _ others)
    · rw [readMembers_eq_some_iff] at read ⊢
      cases read with
      | last field closing => exact .last (fields _ _ _ _ field) closing
      | cons field comma others => exact .cons (fields _ _ _ _ field) comma (members _ _ _ others)

theorem readValue_mono {n m : Nat} {t s : Text} {j : Json} (more : n ≤ m)
    (read : readValue n t = some (j, s)) : readValue m t = some (j, s) := by
  induction more with
  | refl => exact read
  | step _ ih => exact (read_mono _).1 _ _ _ ih

/-- Two counts that lead to an answer lead to the same one. -/
theorem readValue_unique {n m : Nat} {t s s' : Text} {j j' : Json}
    (read : readValue n t = some (j, s)) (read' : readValue m t = some (j', s')) :
    j = j' ∧ s = s' := by
  have same := (readValue_mono (Nat.le_max_left n m) read).symm.trans
    (readValue_mono (Nat.le_max_right n m) read')
  exact Prod.mk.inj (Option.some.inj same)

/-- Spaces in front of a value are passed over. -/
theorem readValue_gap {gap : Text} (blank : IsGap gap) (n : Nat) (t : Text) :
    readValue n (gap ++ t) = readValue n t := by
  cases n with
  | zero => rfl
  | succ n => rw [readValue, readValue, blank.skipSpace_append]

end RequestCompiler.Json
