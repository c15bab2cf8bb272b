import RequestCompiler.Directive.Parser
import RequestCompiler.Proofs.Delta.Token
import RequestCompiler.Proofs.Except

/-!
# The form of a directive line

`Directive.Written line id deltas` is the grammar of a trimmed line: `use:` and the id, then for
each delta one or more blanks and its token. `parseLine_eq_ok_iff` shows that a line is read as a
directive exactly if it has this form, and then as the directive it is written for.
-/

namespace RequestCompiler

namespace Directive

/-- The form of a trimmed line: `use:`, the id, and for each delta one or more blanks and its
token. -/
structure Written (line id : Text) (deltas : List Delta) : Prop where
  name : isName id = true
  renderable : ∀ d ∈ deltas, d.isRenderable = true
  form : ∃ tail, line = lead ++ (id ++ tail) ∧ Text.Spaced tail (deltas.map Delta.token)

/-- A token without blanks is read as the delta whose token it is. -/
theorem parseToken_eq_ok_iff {token : Text} {d : Delta} (solid : isSolid token = true) :
    parseToken token = .ok d ↔ d.isRenderable = true ∧ token = d.token := by
  have trimmed : token.trim = token := Text.trim_eq_self_of_solid (isSolid_iff.1 solid).2
  have parsed : Delta.parse token = .ok d ↔ (Delta.parse token).mapError ParseCause.delta = .ok d := by
    exact mapError_eq_ok_iff.symm
  unfold parseToken
  cases token with
  | nil => simp [isSolid] at solid
  | cons u r =>
    by_cases plus : u = unit '+'
    · subst plus
      rw [if_neg (by simp), ← parsed, Delta.parse_eq_ok_iff, trimmed, Delta.token_eq]
      simp [Delta.stripPlus]
    · rw [if_pos (by simpa using plus)]
      simp [Delta.token_eq, plus]

/-- Tokens are read as deltas exactly if they are the tokens of those deltas. -/
theorem map_parseToken_eq_iff {tokens : List Text} {ds : List Delta}
    (solid : ∀ t ∈ tokens, isSolid t = true) :
    tokens.map parseToken = ds.map .ok ↔
      (∀ d ∈ ds, d.isRenderable = true) ∧ tokens = ds.map Delta.token := by
  induction tokens generalizing ds with
  | nil => cases ds <;> simp
  | cons t ts ih =>
    cases ds with
    | nil => simp
    | cons d ds =>
      have first := parseToken_eq_ok_iff (d := d) (solid t (by simp))
      have rest := @ih ds fun t ht => solid t (List.mem_cons_of_mem _ ht)
      simp only [List.map_cons, List.cons.injEq, first, rest, List.forall_mem_cons]
      tauto

@[simp] theorem map_fst_place (raw : Text) (cursor : Nat) (tokens : List Text) :
    (place raw cursor tokens).map Prod.fst = tokens := by
  induction tokens generalizing cursor with
  | nil => rfl
  | cons t ts ih => simp [place, ih]

/-- What is read from a line whose words are known. -/
theorem parseLine_eq_ok_of_words {raw rest id : Text} {n : Nat} {tokens : List Text} {d : Directive}
    (text : raw.trim = lead ++ rest) (words : Text.words rest = id :: tokens) :
    parseLine raw n = .ok d ↔
      isName id = true ∧ tokens.map parseToken = d.deltas.map .ok ∧ d.id = id ∧ d.line = n := by
  have starts : lead.isPrefixOf (lead ++ rest) = true := by simp
  simp only [parseLine, text, starts, Bool.not_true, Bool.false_eq_true, if_false, List.drop_left,
    words, List.headD_cons, List.tail_cons]
  have placed := map_fst_place raw (raw.length - raw.trimStart.length + lead.length + id.length) tokens
  generalize place raw _ tokens = ps at placed ⊢
  subst placed
  have deltas : (ps.map fun p => (parseToken p.1, p.2)).filterMap (fun p => p.1.toOption) =
      ((ps.map Prod.fst).map parseToken).filterMap Except.toOption := by
    simp [List.filterMap_map, Function.comp_def]
  rw [deltas]
  cases name : isName id with
  | false => simp
  | true =>
    simp only [Bool.not_true, Bool.false_eq_true, if_false, true_and, eq_map_ok_iff,
      List.forall_mem_map]
    split
    · rename_i clean
      simp only [List.isEmpty_iff, List.filterMap_eq_nil_iff, List.forall_mem_map] at clean
      have answered : ∀ p ∈ ps, ∃ delta, parseToken p.1 = .ok delta := by
        intro p hp
        have none := clean p hp
        cases read : parseToken p.1 with
        | ok delta => exact ⟨delta, rfl⟩
        | error cause => simp [read] at none
      constructor
      · intro h
        obtain rfl := Except.ok.inj h
        exact ⟨⟨answered, rfl⟩, rfl, rfl⟩
      · rintro ⟨⟨-, same⟩, rfl, rfl⟩
        rw [same]
    · rename_i faulty
      refine iff_of_false nofun fun h => faulty ?_
      simp only [List.isEmpty_iff, List.filterMap_eq_nil_iff, List.forall_mem_map]
      intro p hp
      obtain ⟨delta, read⟩ := h.1.1 p hp
      simp [read]

/-- A line is read as the directive that it is written for, and as none if it has not the form
of a directive. -/
theorem parseLine_eq_ok_iff {raw : Text} {n : Nat} {d : Directive} :
    parseLine raw n = .ok d ↔ Written raw.trim d.id d.deltas ∧ d.line = n := by
  by_cases starts : lead <+: raw.trim
  · obtain ⟨rest, text⟩ := starts
    have last : ∀ u ∈ rest.getLast?, Text.isBlank u = false := fun u hu =>
      Text.isBlank_getLast_trim (t := raw) u (by simp [← text, Option.mem_def.1 hu])
    obtain ⟨w, tail, tokens, rfl, solid, spaced⟩ := Text.exists_spaced last
    have words := Text.words_append_solid solid spaced.words
    rw [List.append_nil] at words
    rw [parseLine_eq_ok_of_words text.symm words, map_parseToken_eq_iff spaced.solid]
    constructor
    · rintro ⟨name, ⟨renderable, rfl⟩, rfl, rfl⟩
      exact ⟨⟨name, renderable, tail, text.symm, spaced⟩, rfl⟩
    · rintro ⟨⟨name, renderable, tail', form, spaced'⟩, rfl⟩
      -- Two spaced forms of one text have the same words.
      have same : w ++ tail = d.id ++ tail' := List.append_cancel_left (text.trans form)
      have words' := Text.words_append_solid (isSolid_iff.1 (isSolid_of_isName name)).2 spaced'.words
      rw [← same, words, List.append_nil] at words'
      obtain ⟨rfl, rfl⟩ := List.cons.inj words'
      exact ⟨name, ⟨renderable, rfl⟩, rfl, rfl⟩
  · have refused : lead.isPrefixOf raw.trim = false := by
      rw [Bool.eq_false_iff]
      exact fun h => starts (List.isPrefixOf_iff_prefix.1 h)
    constructor
    · intro h
      simp [parseLine, refused] at h
    · rintro ⟨⟨-, -, tail, form, -⟩, -⟩
      exact absurd ⟨_, form.symm⟩ starts

/-- A line that is no directive is answered with at least one error. -/
theorem parseLine_error_ne_nil {raw : Text} {n : Nat} {errors : List ParseError}
    (h : parseLine raw n = .error errors) : errors ≠ [] := by
  simp only [parseLine] at h
  split at h
  · obtain rfl := Except.error.inj h
    simp
  split at h
  · obtain rfl := Except.error.inj h
    simp
  split at h
  · cases h
  · rename_i faulty
    obtain rfl := Except.error.inj h
    exact fun none => faulty (List.isEmpty_iff.2 none)

end Directive

end RequestCompiler
