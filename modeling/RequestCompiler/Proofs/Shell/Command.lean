import RequestCompiler.Proofs.Text.Words
import RequestCompiler.Shell.Session

/-!
# The commands of lines

The first word of a line decides which command it is, and what follows it is the argument. So
those two alone tell the settings after a line (`prefer_ofLine`), and the word tells whether the
line reloads the registry, searches the codex or ends the session (`kind_ofLine`).
-/

namespace RequestCompiler.Shell

/-- The word that a line starts with. -/
def wordOf (line : Text) : Text := line.trim.words.headD []

/-- What follows it. -/
def argumentOf (line : Text) : Text := Text.join " " line.trim.words.tail

/-- The value that a line asks a setting to take, if the line is a valid command for it. -/
def asked {α : Type} (word : Text) (parse : Text → Option α) (line : Text) : Option α :=
  if wordOf line = word then parse (argumentOf line) else none

theorem head?_wordOf (line : Text) : (wordOf line).head? = line.trim.head? :=
  Text.head?_words fun _ => Text.isBlank_head_trim _

namespace Command

/-- The command loads the registry again. -/
def reloads : Command → Bool
  | reload => true
  | _ => false

/-- The command asks for the codex. -/
def searches : Command → Bool
  | codex _ => true
  | _ => false

/-- The command ends the session. -/
def exits : Command → Bool
  | exit => true
  | _ => false

section Words

variable (line w a : Text)

theorem prefer_ofWords (p : Preferences) :
    (ofWords line w a).prefer p =
      ⟨(if w = Text.ofString "/audience" then Audience.ofText? a else none).getD p.audience,
        (if w = Text.ofString "/mode" then Mode.ofText? a else none).getD p.mode,
        (if w = Text.ofString "/return" then ReturnMode.ofText? a else none).getD
          p.returnMode⟩ := by
  have am : Text.ofString "/audience" ≠ Text.ofString "/mode" := by decide
  have ar : Text.ofString "/audience" ≠ Text.ofString "/return" := by decide
  have mr : Text.ofString "/mode" ≠ Text.ofString "/return" := by decide
  by_cases audience : w = Text.ofString "/audience"
  · subst audience
    have own : ofWords line (Text.ofString "/audience") a = .audience (Audience.ofText? a) := rfl
    rw [own, if_pos rfl, if_neg am, if_neg ar]
    cases Audience.ofText? a <;> rfl
  by_cases mode : w = Text.ofString "/mode"
  · subst mode
    have own : ofWords line (Text.ofString "/mode") a = .mode (Mode.ofText? a) := rfl
    rw [own, if_pos rfl, if_neg am.symm, if_neg mr]
    cases Mode.ofText? a <;> rfl
  by_cases ret : w = Text.ofString "/return"
  · subst ret
    have own : ofWords line (Text.ofString "/return") a = .returnMode (ReturnMode.ofText? a) := rfl
    rw [own, if_pos rfl, if_neg ar.symm, if_neg mr.symm]
    cases ReturnMode.ofText? a <;> rfl
  -- No other word is that of a command with a preference.
  rw [ofWords, if_neg audience, if_neg mode, if_neg ret, if_neg audience, if_neg mode, if_neg ret]
  split_ifs <;> rfl

theorem reloads_ofWords : (ofWords line w a).reloads = decide (w = Text.ofString "/reload") := by
  by_cases own : w = Text.ofString "/reload"
  · subst own
    rfl
  · rw [ofWords, if_neg own, decide_eq_false own]
    split_ifs <;> rfl

theorem searches_ofWords : (ofWords line w a).searches = decide (w = Text.ofString "/codex") := by
  by_cases own : w = Text.ofString "/codex"
  · subst own
    rfl
  · rw [ofWords, if_neg own, decide_eq_false own]
    split_ifs <;> rfl

theorem exits_ofWords :
    (ofWords line w a).exits =
      decide (w = Text.ofString "/exit" ∨ w = Text.ofString "/quit") := by
  by_cases own : w = Text.ofString "/exit" ∨ w = Text.ofString "/quit"
  · rcases own with rfl | rfl <;> rfl
  · rw [ofWords, if_neg own, decide_eq_false own]
    split_ifs <;> rfl

end Words

section Lines

variable {line : Text}

/-- A line with a slash first is the command of its words. -/
theorem ofLine_of_slash (slash : line.trim.head? = some (unit '/')) :
    ofLine line = ofWords line.trim (wordOf line) (argumentOf line) := by
  have solid : ¬line.trim.isEmpty = true := by
    intro empty
    rw [List.isEmpty_iff.1 empty] at slash
    cases slash
  have kind : ¬(line.trim.head? != some (unit '/')) = true := by simp [slash]
  rw [ofLine, if_neg solid, if_neg kind, wordOf, argumentOf]
  cases line.trim.words with
  | nil => rfl
  | cons w ws => rfl

theorem ofLine_of_plain (solid : line.trim ≠ []) (plain : line.trim.head? ≠ some (unit '/')) :
    ofLine line = .compile line.trim := by
  rw [ofLine, if_neg (by simpa using solid), if_pos (by simpa using plain)]

/-- Any other line is compiled, or nothing if it is blank. -/
theorem ofLine_cases (line : Text) :
    (line.trim.head? = some (unit '/') ∧
      ofLine line = ofWords line.trim (wordOf line) (argumentOf line)) ∨
      (∀ r, wordOf line ≠ unit '/' :: r) ∧
        (ofLine line = .nothing ∨ ofLine line = .compile line.trim) := by
  by_cases slash : line.trim.head? = some (unit '/')
  · exact .inl ⟨slash, ofLine_of_slash slash⟩
  · refine .inr ⟨fun r same => ?_, ?_⟩
    · have first := head?_wordOf line
      rw [same] at first
      exact slash first.symm
    · by_cases empty : line.trim = []
      · exact .inl (if_pos (by simpa using empty))
      · exact .inr (ofLine_of_plain empty slash)

/-- A line whose first word has a slash first is the command of its words. -/
theorem ofLine_of_word {r : Text} (word : wordOf line = unit '/' :: r) :
    ofLine line = ofWords line.trim (wordOf line) (argumentOf line) := by
  rcases ofLine_cases line with ⟨-, command⟩ | ⟨other, -⟩
  · exact command
  · exact absurd word (other r)

/-- A line sets what its words ask for, and leaves the other settings. -/
theorem prefer_ofLine (line : Text) (p : Preferences) :
    (ofLine line).prefer p =
      ⟨(asked (Text.ofString "/audience") Audience.ofText? line).getD p.audience,
        (asked (Text.ofString "/mode") Mode.ofText? line).getD p.mode,
        (asked (Text.ofString "/return") ReturnMode.ofText? line).getD p.returnMode⟩ := by
  rcases ofLine_cases line with ⟨-, command⟩ | ⟨other, command⟩
  · rw [command, prefer_ofWords]
    rfl
  · have audience : wordOf line ≠ Text.ofString "/audience" := other _
    have mode : wordOf line ≠ Text.ofString "/mode" := other _
    have ret : wordOf line ≠ Text.ofString "/return" := other _
    rw [asked, asked, asked, if_neg audience, if_neg mode, if_neg ret]
    rcases command with command | command <;> rw [command] <;> rfl

/-- What only commands with certain first words are is told by the first word of a line. -/
theorem kind_ofLine {kind : Command → Bool} {word : Text → Prop} [DecidablePred word]
    (words : ∀ line w a, kind (ofWords line w a) = decide (word w))
    (slashed : ∀ w, word w → ∃ r, w = unit '/' :: r)
    (other : ∀ c, c = nothing ∨ (∃ t, c = compile t) → kind c = false) (line : Text) :
    kind (ofLine line) = decide (word (wordOf line)) := by
  rcases ofLine_cases line with ⟨-, command⟩ | ⟨away, command⟩
  · rw [command, words]
  · have apart : ¬word (wordOf line) := by
      intro same
      obtain ⟨r, slash⟩ := slashed _ same
      exact away r slash
    rw [decide_eq_false apart]
    exact other _ (command.imp_right fun same => ⟨_, same⟩)

theorem reloads_ofLine (line : Text) :
    (ofLine line).reloads = decide (wordOf line = Text.ofString "/reload") := by
  refine kind_ofLine reloads_ofWords (fun w same => ⟨_, same⟩) ?_ line
  rintro c (rfl | ⟨t, rfl⟩) <;> rfl

theorem searches_ofLine (line : Text) :
    (ofLine line).searches = decide (wordOf line = Text.ofString "/codex") := by
  refine kind_ofLine searches_ofWords (fun w same => ⟨_, same⟩) ?_ line
  rintro c (rfl | ⟨t, rfl⟩) <;> rfl

theorem exits_ofLine (line : Text) :
    (ofLine line).exits =
      decide (wordOf line = Text.ofString "/exit" ∨ wordOf line = Text.ofString "/quit") := by
  refine kind_ofLine exits_ofWords ?_ ?_ line
  · rintro w (rfl | rfl)
    exacts [⟨_, rfl⟩, ⟨_, rfl⟩]
  · rintro c (rfl | ⟨t, rfl⟩) <;> rfl

end Lines

end Command

end RequestCompiler.Shell
