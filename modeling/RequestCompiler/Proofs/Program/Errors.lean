import RequestCompiler.Proofs.Program.Grammar
import RequestCompiler.Proofs.Text.Offsets

/-!
# Where errors are reported

`Directive.Reported raw n errors` says which errors line `n` has and at which columns: one where a line without
`use:` starts, one behind `use:` where the id is no name, and otherwise one at each word behind the id that is
no delta token, from left to right. `parse_errors_reported` says that the errors of a source are those of its
lines, in order, followed by what concerns the order of the lines. A column is searched for behind the token
before it; that the search always meets the token itself, also if its text occurs elsewhere in the line, is
`Directive.columns_place`.
-/

namespace RequestCompiler

namespace Text

/-- Behind blanks a word is found where it starts. -/
theorem indexOf?_blanks {gap token rest : Text} (blank : ∀ u ∈ gap, isBlank u = true)
    (solid : isSolid token = true) : indexOf? token (gap ++ (token ++ rest)) = some gap.length := by
  obtain ⟨ne, units⟩ := isSolid_iff.1 solid
  obtain ⟨v, token, rfl⟩ := List.exists_cons_of_ne_nil ne
  induction gap with
  | nil => simp [indexOf?]
  | cons u gap ih =>
    have first : ¬(v :: token).isPrefixOf (u :: (gap ++ (v :: token ++ rest))) = true := by
      rw [List.isPrefixOf_iff_prefix]
      intro starts
      obtain ⟨rfl, -⟩ := List.cons_prefix_cons.1 starts
      simp [units v List.mem_cons_self] at blank
    have later := ih fun w member => blank w (List.mem_cons_of_mem u member)
    rw [List.cons_append, indexOf?, if_neg first, later]
    rfl

/-- A spaced text starts with a blank, if it is not empty. -/
theorem Spaced.isBlank_head {tail last : Text} {tokens : List Text} (h : Spaced tail tokens)
    (blank : ∀ u ∈ last, isBlank u = true) : ∀ u ∈ (tail ++ last).head?, isBlank u = true := by
  cases h with
  | nil => exact fun u first => blank u (List.mem_of_mem_head? first)
  | @cons gap token tail tokens gap_ne gap_blank solid rest =>
    intro u first
    refine gap_blank u (List.mem_of_mem_head? ?_)
    cases gap with
    | nil => exact absurd rfl gap_ne
    | cons v gap => simpa using first

/-- A text is its trimmed text with blanks on both sides, those in front as many as trimming takes there. -/
theorem exists_margins (t : Text) : ∃ indent last, t = indent ++ (t.trim ++ last) ∧
    (∀ u ∈ indent, isBlank u = true) ∧ (∀ u ∈ last, isBlank u = true) ∧
    t.length - t.trimStart.length = indent.length := by
  have start : t.takeWhile isBlank ++ t.trimStart = t := List.takeWhile_append_dropWhile
  have rest : t.trim ++ t.trimStart.rtakeWhile isBlank = t.trimStart :=
    List.rdropWhile_append_rtakeWhile
  refine ⟨t.takeWhile isBlank, t.trimStart.rtakeWhile isBlank, ?_, fun u => List.mem_takeWhile_imp,
    fun u => List.mem_rtakeWhile_imp, ?_⟩
  · rw [rest, start]
  · have lengths := congrArg List.length start
    rw [List.length_append] at lengths
    omega

end Text

/-- The errors of a result. -/
def errorsOf {α : Type} : Except (List ParseError) α → List ParseError
  | .ok _ => []
  | .error errors => errors

namespace Directive

open Text

/-- The tokens of a line are placed at its words. -/
theorem columns_place {t front tail last : Text} {tokens : List Text} (spaced : Spaced tail tokens)
    (blank : ∀ u ∈ last, isBlank u = true) (form : t = front ++ (tail ++ last)) :
    Columns t front.length (place t front.length tokens) := by
  induction spaced generalizing front with
  | nil =>
    refine .nil fun i u low found => blank u ?_
    rw [form, List.nil_append, List.getElem?_append_right low] at found
    exact List.mem_of_getElem? found
  | @cons gap token tail tokens gap_ne gap_blank solid rest ih =>
    have found : indexOf? token (t.drop front.length) = some gap.length := by
      rw [form, List.drop_left, List.append_assoc, List.append_assoc]
      exact indexOf?_blanks gap_blank solid
    have gap_end : ∀ u ∈ (front ++ gap).getLast?, isBlank u = true := by
      intro u ends
      rw [List.getLast?_append_of_ne_nil _ gap_ne] at ends
      exact gap_blank u (List.mem_of_getLast? ends)
    have word : WordAt t (front ++ gap).length token := by
      have split : t = (front ++ gap) ++ (token ++ (tail ++ last)) := by simp [form]
      rw [split]
      exact wordAt_append solid gap_end (rest.isBlank_head blank)
    have next : t = (front ++ gap ++ token) ++ (tail ++ last) := by simp [form]
    have behind := ih next
    rw [List.length_append] at behind
    rw [place, found, Option.getD_some, ← List.length_append]
    refine .cons behind word (by simp) fun i u low high present => gap_blank u ?_
    rw [form, List.getElem?_append_right low] at present
    rw [List.length_append] at high
    rw [List.append_assoc, List.append_assoc, List.getElem?_append_left (by omega)] at present
    exact List.mem_of_getElem? present

/-- The text is the token of no delta. -/
def NoDelta (token : Text) : Prop := ∀ d : Delta, d.isRenderable = true → token ≠ d.token

/-- The errors of a line's tokens: one for each word behind an offset that is no delta token, at the column
where this word starts, from left to right. -/
structure TokenErrors (raw : Text) (n behind : Nat) (errors : List ParseError) : Prop where
  ascending : errors.Pairwise fun e e' => e.column < e'.column
  sound : ∀ e ∈ errors, ∃ start token, WordAt raw start token ∧ behind ≤ start ∧ NoDelta token ∧
    parseToken token = .error e.cause ∧ e.line = n ∧ e.column = start + 1
  complete : ∀ start token, WordAt raw start token → behind ≤ start → NoDelta token →
    ∃ e ∈ errors, e.column = start + 1

/-- The errors of line `n`, which has a trimmed text without `use:`, an id that is no name, or tokens behind
its id. Nothing is read behind an id that is no name. -/
inductive Reported (raw : Text) (n : Nat) : List ParseError → Prop
  | lead {indent last : Text} (form : raw = indent ++ (raw.trim ++ last))
      (indented : ∀ u ∈ indent, isBlank u = true) (other : ¬lead <+: raw.trim) :
      Reported raw n [⟨n, indent.length + 1, .expectedUse raw.trim⟩]
  | id {indent id rest : Text} (form : raw = indent ++ (Directive.lead ++ (id ++ rest)))
      (indented : ∀ u ∈ indent, isBlank u = true) (whole : ∀ u ∈ id, isBlank u = false)
      (ends : ∀ u ∈ rest.head?, isBlank u = true) (bad : isName id = false) :
      Reported raw n [⟨n, indent.length + Directive.lead.length + 1, .badId id⟩]
  | tokens {indent id rest : Text} {errors : List ParseError}
      (form : raw = indent ++ (Directive.lead ++ (id ++ rest)))
      (indented : ∀ u ∈ indent, isBlank u = true) (ends : ∀ u ∈ rest.head?, isBlank u = true)
      (name : isName id = true)
      (reported : TokenErrors raw n (indent.length + Directive.lead.length + id.length) errors) :
      Reported raw n errors

/-- A word is refused exactly if it is no delta token. -/
theorem noDelta_iff {token : Text} (solid : isSolid token = true) :
    NoDelta token ↔ ∃ cause, parseToken token = .error cause := by
  cases read : parseToken token with
  | ok d =>
    obtain ⟨renderable, same⟩ := (parseToken_eq_ok_iff solid).1 read
    exact iff_of_false (fun none => none d renderable same) nofun
  | error cause =>
    refine iff_of_true (fun d renderable same => ?_) ⟨cause, rfl⟩
    have answered := (parseToken_eq_ok_iff solid).2 ⟨renderable, same⟩
    exact nomatch read.symm.trans answered

/-- The error of a placed token, if it has one. -/
def tokenError? (n : Nat) (p : Text × Nat) : Option ParseError :=
  match parseToken p.1 with
  | .error cause => some ⟨n, p.2, cause⟩
  | .ok _ => none

theorem tokenError?_eq_some_iff {n : Nat} {p : Text × Nat} {e : ParseError} :
    tokenError? n p = some e ↔ parseToken p.1 = .error e.cause ∧ e.line = n ∧ e.column = p.2 := by
  unfold tokenError?
  cases e
  cases parseToken p.1 <;> simp [eq_comm, and_comm, and_assoc]

/-- The errors of the words of a line, where each word has its column. -/
theorem tokenErrors_of_columns {raw : Text} {n behind : Nat} {ps : List (Text × Nat)}
    (columns : Columns raw behind ps) : TokenErrors raw n behind (ps.filterMap (tokenError? n)) where
  ascending := by
    refine columns.ascending.filterMap _ fun p p' less e found e' found' => ?_
    rw [(tokenError?_eq_some_iff.1 found).2.2, (tokenError?_eq_some_iff.1 found').2.2]
    exact less
  sound := by
    intro e member
    obtain ⟨p, placed, found⟩ := List.mem_filterMap.1 member
    obtain ⟨read, line, column⟩ := tokenError?_eq_some_iff.1 found
    obtain ⟨start, starts, low, word⟩ := columns.sound p placed
    exact ⟨start, p.1, word, low, (noDelta_iff word.solid).2 ⟨_, read⟩, read, line, column.trans starts⟩
  complete := by
    intro start token word low none
    obtain ⟨cause, read⟩ := (noDelta_iff word.solid).1 none
    have placed := columns.complete start token word low
    exact ⟨⟨n, start + 1, cause⟩, List.mem_filterMap.2 ⟨_, placed, by simp [tokenError?, read]⟩, rfl⟩

/-- What a line with a known id and known words behind it is answered with. -/
theorem errorsOf_parseLine {raw rest id : Text} {n : Nat} {tokens : List Text}
    (text : raw.trim = lead ++ rest) (words : Text.words rest = id :: tokens) :
    errorsOf (parseLine raw n) =
      if isName id = true then
        (place raw (raw.length - raw.trimStart.length + lead.length + id.length) tokens).filterMap
          (tokenError? n)
      else [⟨n, raw.length - raw.trimStart.length + lead.length + 1, .badId id⟩] := by
  have starts : lead.isPrefixOf (lead ++ rest) = true := by simp
  simp only [parseLine, text, starts, Bool.not_true, Bool.false_eq_true, if_false, List.drop_left,
    words, List.headD_cons, List.tail_cons, List.filterMap_map]
  cases name : isName id with
  | false => rfl
  | true =>
    simp only [Bool.not_true, Bool.false_eq_true, if_false, if_true]
    generalize place raw _ tokens = ps
    show errorsOf (if (ps.filterMap (tokenError? n)).isEmpty = true then .ok (Directive.mk id _ n)
      else .error (ps.filterMap (tokenError? n))) = ps.filterMap (tokenError? n)
    cases errors : ps.filterMap (tokenError? n) <;> rfl

/-- Every line is answered with the errors of its form, of which it may have none. -/
theorem reported_parseLine (raw : Text) (n : Nat) : Reported raw n (errorsOf (parseLine raw n)) := by
  obtain ⟨indent, last, form, indented, blank, length⟩ := exists_margins raw
  by_cases starts : lead <+: raw.trim
  · obtain ⟨rest, text⟩ := starts
    have ends : ∀ u ∈ rest.getLast?, isBlank u = false := fun u hu =>
      isBlank_getLast_trim (t := raw) u (by simp [← text, Option.mem_def.1 hu])
    obtain ⟨id, tail, tokens, rfl, whole, spaced⟩ := exists_spaced ends
    have words := words_append_solid whole spaced.words
    rw [List.append_nil] at words
    have form' : raw = indent ++ (lead ++ (id ++ (tail ++ last))) := by simpa [← text] using form
    rw [errorsOf_parseLine text.symm words, length]
    split
    · rename_i name
      have behind : raw = (indent ++ lead ++ id) ++ (tail ++ last) := by simpa using form'
      have placed := columns_place spaced blank behind
      rw [List.length_append, List.length_append] at placed
      exact .tokens form' indented (spaced.isBlank_head blank) name (tokenErrors_of_columns placed)
    · rename_i bad
      exact .id form' indented whole (spaced.isBlank_head blank) (by simpa using bad)
  · have refused : lead.isPrefixOf raw.trim = false := by
      rw [Bool.eq_false_iff]
      exact fun h => starts (List.isPrefixOf_iff_prefix.1 h)
    have answer : errorsOf (parseLine raw n) = [⟨n, indent.length + 1, .expectedUse raw.trim⟩] := by
      simp [parseLine, refused, errorsOf, length]
    exact answer ▸ .lead form indented starts

end Directive

/-- The cause is found in one line, not in the order of the directives. -/
def ParseCause.OfLine : ParseCause → Prop
  | .expectedUse _ | .badId _ | .expectedDelta _ | .delta _ => True
  | .empty | .firstNotProfile _ | .profileDeltas | .secondProfile _ => False

namespace Program

theorem not_ofLine_structureErrors {ds : List Directive} : ∀ e ∈ structureErrors ds, ¬e.cause.OfLine := by
  cases ds with
  | nil => nofun
  | cons profile bundles =>
    intro e member
    simp only [structureErrors, List.mem_append, List.mem_map] at member
    rcases member with (member | member) | ⟨b, -, rfl⟩
    · split at member
      · cases member
      · exact List.mem_singleton.1 member ▸ id
    · split at member
      · cases member
      · exact List.mem_singleton.1 member ▸ id
    · exact id

/-- The errors of a source: those of its lines, possibly that it is empty, and then those of the order of the
directives that could be read. -/
theorem errorsOf_parse_eq (source : Text) : ∃ missing : List ParseError,
    errorsOf (parse source) =
      (codeLines source).flatMap (fun l => errorsOf (Directive.parseLine l.1 l.2)) ++ missing ++
        structureErrors
          ((codeLines source).filterMap fun l => (Directive.parseLine l.1 l.2).toOption) ∧
      ∀ e ∈ missing, e.cause = .empty := by
  generalize results : (codeLines source).map (fun l => Directive.parseLine l.1 l.2) = rs
  have ofLines : (codeLines source).flatMap (fun l => errorsOf (Directive.parseLine l.1 l.2)) =
      rs.flatMap errorsOf := by rw [← results, List.flatMap_map]
  have directives : ((codeLines source).filterMap fun l => (Directive.parseLine l.1 l.2).toOption) =
      rs.filterMap Except.toOption := by
    rw [← results, List.filterMap_map]
    rfl
  simp only [parse, results, ofLines, directives]
  rw [List.flatMap_congr (g := errorsOf) fun r _ => ?_]
  · refine ⟨if (rs.flatMap errorsOf).isEmpty && (rs.filterMap Except.toOption).isEmpty
      then [⟨1, 1, .empty⟩] else [], ?_, fun e member => ?_⟩
    · split
      · rename_i none _
        rw [none]
        rfl
      · rfl
    · split at member
      · exact List.mem_singleton.1 member ▸ rfl
      · cases member
  · cases r <;> rfl

/-- The errors of a source: those of its lines, and then those of the order of its directives. -/
theorem exists_errorsOf_parse (source : Text) : ∃ order, errorsOf (parse source) =
    (codeLines source).flatMap (fun l => errorsOf (Directive.parseLine l.1 l.2)) ++ order ∧
      ∀ e ∈ order, ¬e.cause.OfLine := by
  obtain ⟨missing, errors, empty⟩ := errorsOf_parse_eq source
  refine ⟨_, errors.trans (List.append_assoc _ _ _), fun e member => ?_⟩
  rcases List.mem_append.1 member with member | member
  · rw [empty e member]
    exact id
  · exact not_ofLine_structureErrors e member

/-- The errors of a source are those that are reported for its lines, in order, and behind them nothing but
errors in the order of the directives. -/
theorem parse_errors_reported (source : Text) : ∃ lines reports order, CodeLines source lines ∧
    List.Forall₂ (fun l errors => Directive.Reported l.1 l.2 errors) lines reports ∧
    errorsOf (parse source) = reports.flatten ++ order ∧ ∀ e ∈ order, ¬e.cause.OfLine := by
  obtain ⟨order, errors, ofOrder⟩ := exists_errorsOf_parse source
  refine ⟨codeLines source, (codeLines source).map fun l => errorsOf (Directive.parseLine l.1 l.2), order,
    codeLines_iff.2 rfl, ?_, ?_, ofOrder⟩
  · rw [List.forall₂_map_right_iff, List.forall₂_same]
    exact fun l _ => Directive.reported_parseLine l.1 l.2
  · rw [errors, List.flatMap_def]

/-- Tokens that repeat the id, a part of it and each other are reported where they stand. -/
example : (errorsOf (parse "use:profile.dev.v1\n\tuse:a.v1 a.v1 +k=v a +k  a")).map
    (fun e => (e.line, e.column)) = [(2, 11), (2, 21), (2, 23), (2, 27)] := by decide +kernel

end Program

end RequestCompiler
