import RequestCompiler.Proofs.Program.Errors

/-!
# What is said of the first directive

A program starts with a profile that has no deltas. This is checked on the first directive that could be read,
`FirstRead`, so an error about it is reported for the line of that directive (`mem_errorsOf_parse_iff`). Lines
before it that could not be read make a later directive look like the first one. The errors are reported where they
belong, `BlamesFirst`, exactly if the first readable directive is the profile that it should be or is that of the
first code line (`blamesFirst_iff`).
-/

namespace RequestCompiler

/-- The cause is found in the directive that a program has to start with. -/
def ParseCause.OfFirst : ParseCause → Prop
  | .firstNotProfile _ | .profileDeltas => True
  | .expectedUse _ | .badId _ | .expectedDelta _ | .delta _ | .empty | .secondProfile _ => False

theorem ParseCause.OfFirst.not_ofLine {c : ParseCause} (first : c.OfFirst) : ¬c.OfLine := by
  cases c with
  | firstNotProfile _ | profileDeltas => exact id
  | _ => cases first

namespace Directive

/-- A token is refused for a cause that lies in its line. -/
theorem ofLine_of_parseToken {token : Text} {cause : ParseCause} (read : parseToken token = .error cause) :
    cause.OfLine := by
  unfold parseToken at read
  split at read
  · obtain rfl := Except.error.inj read
    trivial
  · cases parsed : Delta.parse token with
    | ok d =>
      rw [parsed] at read
      cases read
    | error e =>
      rw [parsed] at read
      obtain rfl := Except.error.inj read
      trivial

theorem Reported.ofLine {raw : Text} {n : Nat} {errors : List ParseError}
    (reported : Reported raw n errors) : ∀ e ∈ errors, e.cause.OfLine := by
  intro e member
  cases reported with
  | lead form indented other =>
    obtain rfl := List.mem_singleton.1 member
    trivial
  | id form indented whole ends bad =>
    obtain rfl := List.mem_singleton.1 member
    trivial
  | tokens form indented ends name reported =>
    obtain ⟨start, token, -, -, -, read, -⟩ := reported.sound e member
    exact ofLine_of_parseToken read

end Directive

namespace Program

/-- The directive can be the first one of a program. -/
def Opens (d : Directive) : Prop := Directive.isProfileId d.id = true ∧ d.deltas = []

/-- The directive is that of a code line, and no code line before that one has the form of a directive. -/
def FirstRead (source : Text) (d : Directive) : Prop :=
  ∃ before l after, CodeLines source (before ++ l :: after) ∧
    (∀ b ∈ before, ∀ id ds, ¬Directive.Written b.1.trim id ds) ∧ IsDirective l d

/-- Errors about the first directive are reported for the first code line. -/
structure BlamesFirst (source : Text) : Prop where
  first : ∀ e ∈ errorsOf (parse source), e.cause.OfFirst →
    ∃ l later, CodeLines source (l :: later) ∧ e.line = l.2
  /-- Where the first code line names a profile, no later line is said to be a first directive that does not. -/
  spared : ∀ l later, CodeLines source (l :: later) →
    Directive.lead ++ Directive.profileLead <+: l.1.trim →
      ∀ e ∈ errorsOf (parse source), ∀ id, e.cause = .firstNotProfile id → ¬l.2 < e.line

section FirstRead

variable {source : Text} {d : Directive}

theorem toOption_parseLine_eq_some_iff {l : Text × Nat} :
    (Directive.parseLine l.1 l.2).toOption = some d ↔ IsDirective l d := by
  rw [IsDirective, ← Directive.parseLine_eq_ok_iff]
  cases Directive.parseLine l.1 l.2 <;> simp [Except.toOption]

theorem toOption_parseLine_eq_none_iff {l : Text × Nat} :
    (Directive.parseLine l.1 l.2).toOption = none ↔ ∀ id ds, ¬Directive.Written l.1.trim id ds := by
  rw [Option.eq_none_iff_forall_ne_some]
  simp only [ne_eq, toOption_parseLine_eq_some_iff, IsDirective]
  constructor
  · intro unread id ds written
    exact unread ⟨id, ds, l.2⟩ ⟨written, rfl⟩
  · intro unwritten d read
    exact unwritten d.id d.deltas read.1

theorem head?_directives_eq_some_iff :
    ((codeLines source).filterMap fun l => (Directive.parseLine l.1 l.2).toOption).head? = some d ↔
      FirstRead source d := by
  have head : ∀ ds : List Directive, ds.head? = some d ↔ ∃ later, ds = d :: later := fun ds => by
    cases ds <;> simp
  simp only [head, List.filterMap_eq_cons_iff, toOption_parseLine_eq_none_iff,
    toOption_parseLine_eq_some_iff, FirstRead, codeLines_iff]
  constructor
  · rintro ⟨later, before, l, after, lines, unread, read, -⟩
    exact ⟨before, l, after, lines, unread, read⟩
  · rintro ⟨before, l, after, lines, unread, read⟩
    exact ⟨_, before, l, after, lines, unread, read, rfl⟩

end FirstRead

/-- What is wrong with a directive in first place. -/
theorem mem_structureErrors_iff {ds : List Directive} {e : ParseError} (first : e.cause.OfFirst) :
    e ∈ structureErrors ds ↔ ∃ d, ds.head? = some d ∧
      ((Directive.isProfileId d.id = false ∧ e = ⟨d.line, 1, .firstNotProfile d.id⟩) ∨
        d.deltas ≠ [] ∧ e = ⟨d.line, 1, .profileDeltas⟩) := by
  cases ds with
  | nil => simp [structureErrors]
  | cons d later =>
    have second : ∀ b ∈ later, (⟨b.line, 1, .secondProfile b.id⟩ : ParseError) ≠ e := by
      rintro b - rfl
      exact first
    simp only [structureErrors, List.mem_append, List.head?_cons, Option.some.injEq, exists_eq_left']
    constructor
    · rintro ((member | member) | member)
      · split at member
        · cases member
        · rename_i other
          exact .inl ⟨by simpa using other, List.mem_singleton.1 member⟩
      · split at member
        · cases member
        · rename_i some
          exact .inr ⟨by simpa using some, List.mem_singleton.1 member⟩
      · obtain ⟨b, listed, same⟩ := List.mem_map.1 member
        exact absurd same (second b (List.mem_filter.1 listed).1)
    · rintro (⟨other, rfl⟩ | ⟨some, rfl⟩)
      · simp [other]
      · simp [some]

/-- An error about the first directive is found in the first one that could be read, and in its line. -/
theorem mem_errorsOf_parse_iff {source : Text} {e : ParseError} (first : e.cause.OfFirst) :
    e ∈ errorsOf (parse source) ↔ ∃ d, FirstRead source d ∧
      ((Directive.isProfileId d.id = false ∧ e = ⟨d.line, 1, .firstNotProfile d.id⟩) ∨
        d.deltas ≠ [] ∧ e = ⟨d.line, 1, .profileDeltas⟩) := by
  obtain ⟨missing, errors, empty⟩ := errorsOf_parse_eq source
  have notOfLines : e ∉ (codeLines source).flatMap fun l => errorsOf (Directive.parseLine l.1 l.2) := by
    intro member
    obtain ⟨l, -, found⟩ := List.mem_flatMap.1 member
    exact first.not_ofLine ((Directive.reported_parseLine l.1 l.2).ofLine e found)
  have notMissing : e ∉ missing := by
    intro member
    rw [empty e member] at first
    exact first
  simp only [errors, List.mem_append, notOfLines, notMissing, false_or, mem_structureErrors_iff first,
    head?_directives_eq_some_iff]

/-- A directive that cannot be the first one, read as the first one, is reported for its line. -/
theorem exists_error_of_firstRead {source : Text} {d : Directive} (read : FirstRead source d)
    (faulty : ¬Opens d) : ∃ e ∈ errorsOf (parse source), e.cause.OfFirst ∧ e.line = d.line := by
  by_cases profile : Directive.isProfileId d.id = true
  · have some : d.deltas ≠ [] := fun none => faulty ⟨profile, none⟩
    have member := (mem_errorsOf_parse_iff (e := ⟨d.line, 1, .profileDeltas⟩) trivial).2
      ⟨d, read, .inr ⟨some, rfl⟩⟩
    exact ⟨_, member, trivial, rfl⟩
  · have member := (mem_errorsOf_parse_iff (e := ⟨d.line, 1, .firstNotProfile d.id⟩) trivial).2
      ⟨d, read, .inl ⟨by simpa using profile, rfl⟩⟩
    exact ⟨_, member, trivial, rfl⟩

/-- The errors about the first directive are reported for the first code line exactly if the first directive that
could be read opens a program or is that of this line. -/
theorem blamesFirst_iff (source : Text) :
    BlamesFirst source ↔ ∀ d, FirstRead source d →
      Opens d ∨ ∃ l later, CodeLines source (l :: later) ∧ d.line = l.2 := by
  constructor
  · intro blames d read
    by_cases opens : Opens d
    · exact .inl opens
    · obtain ⟨e, member, first, line⟩ := exists_error_of_firstRead read opens
      exact .inr (line ▸ blames.first e member first)
  · intro each
    have first : ∀ e ∈ errorsOf (parse source), e.cause.OfFirst →
        ∃ l later, CodeLines source (l :: later) ∧ e.line = l.2 := by
      intro e member first
      obtain ⟨d, read, (⟨other, rfl⟩ | ⟨some, rfl⟩)⟩ := (mem_errorsOf_parse_iff first).1 member
      · refine (each d read).resolve_left fun opens => ?_
        rw [opens.1] at other
        cases other
      · exact (each d read).resolve_left fun opens => some opens.2
    refine ⟨first, fun l later lines _ e member id cause after => ?_⟩
    have ofFirst : e.cause.OfFirst := by
      rw [cause]
      trivial
    obtain ⟨l', later', lines', line⟩ := first e member ofFirst
    -- The code lines of a source are determined, so the two first ones are the same.
    obtain ⟨rfl, -⟩ := List.cons.inj ((codeLines_iff.1 lines).symm.trans (codeLines_iff.1 lines'))
    omega

/-- A profile line in which a word is no delta token. -/
def faultyProfile : Text := "use:profile.dev.v1 depth"

/-- The faulty line, and below it a bundle line without a fault. -/
def faultyProfileSource : Text := faultyProfile ++ unit '\n' :: Text.ofString "use:code.review.v1"

theorem not_always_blamesFirst : ¬∀ source, BlamesFirst source := by
  intro always
  have lines : codeLines faultyProfileSource = [(faultyProfile, 1), ("use:code.review.v1", 2)] := by
    decide +kernel
  have profile : Directive.lead ++ Directive.profileLead <+: faultyProfile.trim := by decide +kernel
  have blamed : ⟨2, 1, .firstNotProfile "code.review.v1"⟩ ∈ errorsOf (parse faultyProfileSource) := by
    decide +kernel
  have spared := (always faultyProfileSource).spared _ _ (codeLines_iff.2 lines) profile _ blamed _ rfl
  exact spared (by decide)

end Program

end RequestCompiler
