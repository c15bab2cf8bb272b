import RequestCompiler.Proofs.Delta.Token

/-!
# Deltas and their texts

Writing a delta and reading a delta undo each other. A delta that can be written is read back from its
token, with or without the plus sign and with blanks around it (`parse_surrounded`, `parse_tail_token`), and
a text that is read is the token of what it is read as but for those blanks and that sign
(`format_of_parse`). No delta is read exactly where the text is no `Pair` (`parse_fails_iff`).
-/

namespace RequestCompiler.Delta

/-- The text is a name up to its first equals sign, and a run without blanks behind it. -/
def Pair (t : Text) : Prop :=
  ∃ key value, t = key ++ unit '=' :: value ∧ unit '=' ∉ key ∧ isName key = true ∧
    isSolid value = true

section Reading

variable {d : Delta} {s t x y : Text}

theorem exists_format_iff :
    (∃ t, d.format = .ok t) ↔ isName d.key = true ∧ isSolid d.value = true := by
  rw [← isRenderable_iff]
  constructor
  · rintro ⟨t, written⟩
    exact (format_eq_ok_iff.1 written).1
  · intro renderable
    exact ⟨d.token, format_eq_ok_iff.2 ⟨renderable, rfl⟩⟩

/-- Blanks around a text do not matter to the delta that is read. -/
theorem parse_surrounded (before : x.isBlankText = true) (behind : y.isBlankText = true) :
    parse (x ++ s ++ y) = .ok d ↔ parse s = .ok d := by
  rw [Text.isBlankText_iff] at before behind
  rw [parse_eq_ok_iff, parse_eq_ok_iff, Text.trim_surrounded before behind]

/-- No name starts with the plus sign that is ignored in front of it. -/
theorem stripPlus_name (named : isName s = true) (t : Text) : stripPlus (s ++ t) = s ++ t := by
  obtain ⟨ne, units⟩ := isName_iff.1 named
  cases s with
  | nil => exact absurd rfl ne
  | cons u s =>
    have plus : u ≠ unit '+' := by
      rintro rfl
      exact nomatch units _ List.mem_cons_self
    rw [List.cons_append, stripPlus, if_neg plus]

/-- Without its plus sign, a token is still read as its delta. -/
theorem parse_tail_token (renderable : d.isRenderable = true) : parse d.token.tail = .ok d := by
  have solid : ∀ u ∈ d.token.tail, Text.isBlank u = false := fun u member =>
    (isSolid_iff.1 (isSolid_token renderable)).2 u (List.mem_of_mem_tail member)
  have named := (isRenderable_iff.1 renderable).1
  rw [parse_eq_ok_iff, Text.trim_eq_self_of_solid solid, token_eq, List.tail_cons]
  exact ⟨renderable, stripPlus_name named _⟩

/-- What is read as a delta is its token, but for blanks around it and the plus sign. -/
theorem format_of_parse (read : parse s = .ok d) : d.format = .ok (unit '+' :: stripPlus s.trim) := by
  obtain ⟨renderable, shape⟩ := parse_eq_ok_iff.1 read
  rw [format_eq_ok_iff, shape, token_eq]
  exact ⟨renderable, rfl⟩

theorem exists_parse_iff : (∃ d, parse s = .ok d) ↔ Pair (stripPlus s.trim) := by
  constructor
  · rintro ⟨d, read⟩
    obtain ⟨renderable, shape⟩ := parse_eq_ok_iff.1 read
    obtain ⟨named, solid⟩ := isRenderable_iff.1 renderable
    exact ⟨d.key, d.value, shape, not_mem_of_isName named (by decide), named, solid⟩
  · rintro ⟨key, value, shape, -, named, solid⟩
    exact ⟨⟨key, value⟩, parse_eq_ok_iff.2 ⟨isRenderable_iff.2 ⟨named, solid⟩, shape⟩⟩

theorem parse_fails_iff : (∃ e, parse s = .error e) ↔ ¬Pair (stripPlus s.trim) := by
  rw [← exists_parse_iff]
  cases parse s <;> simp

end Reading

/-- Exactly the deltas of a name and a value without blanks are written. Such a delta is read back from what
is written, with or without the plus sign and with any blanks around it. What is read as a delta is written
again as a plus sign and the text without blanks around it and without one plus sign in front; and reading
fails exactly for the texts that are then no name, equals sign and value. -/
theorem format_parse (d : Delta) (s : Text) :
    ((∃ t, d.format = .ok t) ↔ isName d.key = true ∧ isSolid d.value = true) ∧
      (∀ t, d.format = .ok t → ∃ body, t = unit '+' :: body ∧
        ∀ x y : Text, x.isBlankText = true → y.isBlankText = true →
          parse (x ++ t ++ y) = .ok d ∧ parse (x ++ body ++ y) = .ok d) ∧
      (parse s = .ok d → d.format = .ok (unit '+' :: stripPlus s.trim)) ∧
      ((∃ e, parse s = .error e) ↔ ¬Pair (stripPlus s.trim)) := by
  refine ⟨exists_format_iff, ?_, format_of_parse, parse_fails_iff⟩
  intro t written
  obtain ⟨renderable, rfl⟩ := format_eq_ok_iff.1 written
  refine ⟨d.token.tail, rfl, ?_⟩
  intro x y before behind
  rw [parse_surrounded before behind, parse_surrounded before behind]
  exact ⟨parse_token renderable, parse_tail_token renderable⟩

/-- A delta whose value holds a plus sign and an equals sign. -/
def nestedDelta : Delta := ⟨"filter", "+a=b"⟩

theorem format_parse_nested :
    nestedDelta.format = .ok "+filter=+a=b" ∧
      parse ("\t" ++ "+filter=+a=b" ++ " ") = .ok nestedDelta ∧
      parse ("\t" ++ "filter=+a=b" ++ " ") = .ok nestedDelta ∧
      ∃ e, parse "++filter=a" = .error e := by
  obtain ⟨-, read, back, -⟩ := format_parse nestedDelta " filter=+a=b"
  obtain ⟨-, -, -, fails⟩ := format_parse nestedDelta "++filter=a"
  have written : nestedDelta.format = .ok "+filter=+a=b" := by decide
  obtain ⟨body, shape, around⟩ := read _ written
  obtain rfl : body = "filter=+a=b" := (List.cons.inj shape).2.symm
  have own := around "\t" " " (by decide) (by decide)
  refine ⟨back (by decide), own.1, own.2, fails.2 ?_⟩
  rintro ⟨key, value, text, -, named, -⟩
  have plus : stripPlus (Text.trim "++filter=a") = unit '+' :: Text.ofString "filter=a" := by decide
  rw [plus] at text
  cases key with
  | nil => exact nomatch named
  | cons u key =>
    obtain rfl := (List.cons.inj text).1
    exact nomatch (isName_iff.1 named).2 _ List.mem_cons_self

end RequestCompiler.Delta
