import RequestCompiler.Json.Printer
import RequestCompiler.Proofs.Json.Quoted

/-!
# Where a JSON text ends

A scan through JSON text counts the open brackets and notes when it is between quotes; outside of
all brackets it stops at a comma. A text is `Closed` if a scan passes it and leaves nothing open. So
closed texts in front of a comma are told apart (`closed_append_inj`), and so are lists of them with
commas between them (`join_inj`).
-/

namespace RequestCompiler.Json

/-- What the next unit of a scan is part of. -/
inductive Place
  | outside
  | quoted
  | escaped

/-- How far a scan has come: the count of open brackets, and the place of the next unit. -/
structure Scan where
  depth : Nat
  place : Place

namespace Scan

/-- The scan after a unit; `none` where it stops. -/
def step? : Scan → UInt16 → Option Scan
  | ⟨depth, .escaped⟩, _ => some ⟨depth, .quoted⟩
  | ⟨depth, .quoted⟩, u =>
    if u = unit '"' then some ⟨depth, .outside⟩
    else if u = unit '\\' then some ⟨depth, .escaped⟩
    else some ⟨depth, .quoted⟩
  | ⟨depth, .outside⟩, u =>
    if u = unit '"' then some ⟨depth, .quoted⟩
    else if u = unit '[' ∨ u = unit '{' then some ⟨depth + 1, .outside⟩
    else if u = unit ']' ∨ u = unit '}' then some ⟨depth - 1, .outside⟩
    else if u = unit ',' ∧ depth = 0 then none
    else some ⟨depth, .outside⟩

/-- The scan after a text. -/
def run? (s : Scan) : Text → Option Scan
  | [] => some s
  | u :: r => (s.step? u).bind fun s' => s'.run? r

theorem run?_append (s : Scan) (a b : Text) :
    s.run? (a ++ b) = (s.run? a).bind fun s' => s'.run? b := by
  induction a generalizing s with
  | nil => rfl
  | cons u a ih =>
    rw [List.cons_append, run?, run?, Option.bind_assoc]
    exact congrArg _ (funext fun s' => ih s')

/-- Two texts that a scan passes and then stops behind are the same if one text starts with both. -/
theorem append_inj {s s₁ s₂ : Scan} {a b r r' : Text} {u : UInt16} (passed : s.run? a = some s₁)
    (stopped : s₁.step? u = none) (passed' : s.run? b = some s₂) (stopped' : s₂.step? u = none)
    (same : a ++ u :: r = b ++ u :: r') : a = b ∧ r = r' := by
  induction a generalizing s b with
  | nil =>
    obtain rfl := Option.some.inj passed
    cases b with
    | nil => exact ⟨rfl, (List.cons.inj same).2⟩
    | cons w b =>
      obtain ⟨rfl, -⟩ := List.cons.inj same
      rw [run?, stopped] at passed'
      cases passed'
  | cons w a ih =>
    obtain ⟨s', first, passed⟩ := Option.bind_eq_some_iff.1 passed
    cases b with
    | nil =>
      obtain ⟨rfl, -⟩ := List.cons.inj same
      obtain rfl := Option.some.inj passed'
      exact nomatch first.symm.trans stopped'
    | cons w' b =>
      obtain ⟨rfl, tails⟩ := List.cons.inj same
      rw [run?, first] at passed'
      obtain ⟨rfl, rest⟩ := ih passed passed' tails
      exact ⟨rfl, rest⟩

end Scan

/-- A scan from outside of quotes passes the text and leaves open what was open. -/
def Closed (t : Text) : Prop := ∀ depth, Scan.run? ⟨depth, .outside⟩ t = some ⟨depth, .outside⟩

section Closed

variable {s t r r' : Text} {u : UInt16}

theorem Closed.append (first : Closed s) (second : Closed t) : Closed (s ++ t) := by
  intro depth
  rw [Scan.run?_append, first depth]
  exact second depth

/-- A closed text ends at the first comma that a scan stops at. -/
theorem closed_append_inj (first : Closed s) (second : Closed t)
    (same : s ++ unit ',' :: r = t ++ unit ',' :: r') : s = t ∧ r = r' :=
  Scan.append_inj (first 0) rfl (second 0) rfl same

/-- Units that are neither quotes nor brackets nor commas. -/
def IsInner (u : UInt16) : Prop :=
  u ≠ unit '"' ∧ ¬(u = unit '[' ∨ u = unit '{') ∧ ¬(u = unit ']' ∨ u = unit '}') ∧ u ≠ unit ','

instance (u : UInt16) : Decidable (IsInner u) := inferInstanceAs (Decidable (_ ∧ _))

theorem closed_of_inner (inner : ∀ u ∈ t, IsInner u) : Closed t := by
  intro depth
  induction t with
  | nil => rfl
  | cons u t ih =>
    rw [List.forall_mem_cons] at inner
    obtain ⟨⟨quote, opening, closing, comma⟩, rest⟩ := inner
    rw [Scan.run?, Scan.step?, if_neg quote, if_neg opening, if_neg closing,
      if_neg fun h => comma h.1]
    exact ih rest

theorem isOwn_hexUnit {d : Nat} (small : d < 16) : Text.IsOwn (Text.hexUnit d) := by
  interval_cases d <;> exact ⟨by decide, by decide, by decide⟩

theorem step?_quoted (own : Text.IsOwn u) (depth : Nat) :
    Scan.step? ⟨depth, .quoted⟩ u = some ⟨depth, .quoted⟩ := by
  rw [Scan.step?, if_neg own.1, if_neg own.2.1]

/-- Escaped units are scanned between quotes to their end. -/
theorem run?_escape (t : Text) (depth : Nat) :
    Scan.run? ⟨depth, .quoted⟩ (Text.escape t) = some ⟨depth, .quoted⟩ := by
  induction t using Text.escape_induction with
  | nil => rfl
  | letter u l t e ascii single value ih => exact ih
  | number u t e ih =>
    have bound := u.toNat_lt
    have d₁ := step?_quoted (isOwn_hexUnit (d := u.toNat / 4096) (by omega)) depth
    have d₂ := step?_quoted (isOwn_hexUnit (d := u.toNat / 256 % 16) (by omega)) depth
    have d₃ := step?_quoted (isOwn_hexUnit (d := u.toNat / 16 % 16) (by omega)) depth
    have d₄ := step?_quoted (isOwn_hexUnit (d := u.toNat % 16) (by omega)) depth
    have lead : Scan.run? ⟨depth, .quoted⟩ [unit '\\', unit 'u'] = some ⟨depth, .quoted⟩ := rfl
    have whole : Scan.run? ⟨depth, .quoted⟩ (Text.unicodeEscape u) = some ⟨depth, .quoted⟩ := by
      refine (Scan.run?_append _ [unit '\\', unit 'u'] _).trans ?_
      rw [lead]
      simp only [Option.bind_some, Scan.run?, d₁, d₂, d₃, d₄]
    rw [Scan.run?_append, whole]
    exact ih
  | own u t e isOwn high low ih =>
    rw [Scan.run?, step?_quoted isOwn]
    exact ih
  | pair u v t e high low ih =>
    rw [Scan.run?, step?_quoted (Text.isOwn_of_surrogate (.inl high)), Option.bind_some, Scan.run?,
      step?_quoted (Text.isOwn_of_surrogate (.inr low))]
    exact ih

theorem closed_quote (t : Text) : Closed t.quote := by
  intro depth
  have opened : Scan.step? ⟨depth, .outside⟩ (unit '"') = some ⟨depth, .quoted⟩ := rfl
  rw [Text.quote, List.cons_append, Scan.run?, opened, Option.bind_some, Scan.run?_append,
    run?_escape]
  rfl

end Closed

section Lists

variable {ts ts' : List Text}

/-- Between brackets, closed texts with commas between them are passed. -/
theorem run?_join (closed : ∀ t ∈ ts, Closed t) (depth : Nat) :
    Scan.run? ⟨depth + 1, .outside⟩ (Text.join "," ts) = some ⟨depth + 1, .outside⟩ := by
  have comma : Scan.run? ⟨depth + 1, .outside⟩ "," = some ⟨depth + 1, .outside⟩ := rfl
  induction ts using Text.join.induct with
  | case1 => rfl
  | case2 t => exact closed t List.mem_cons_self (depth + 1)
  | case3 t t' ts ih =>
    rw [List.forall_mem_cons] at closed
    rw [Text.join, Scan.run?_append, Scan.run?_append, closed.1, Option.bind_some, comma]
    exact ih closed.2

/-- Between brackets that belong together, closed texts make up a closed text. -/
theorem closed_bracketed {opening closing : Text} (closed : ∀ t ∈ ts, Closed t)
    (opens : ∀ depth, Scan.run? ⟨depth, .outside⟩ opening = some ⟨depth + 1, .outside⟩)
    (closes : ∀ depth, Scan.run? ⟨depth + 1, .outside⟩ closing = some ⟨depth, .outside⟩) :
    Closed (opening ++ Text.join "," ts ++ closing) := by
  intro depth
  rw [Scan.run?_append, Scan.run?_append, opens, Option.bind_some, run?_join closed,
    Option.bind_some, closes]

/-- With a comma behind each of them, closed texts are told apart. -/
theorem flatMap_comma_inj (closed : ∀ t ∈ ts, Closed t) (closed' : ∀ t ∈ ts', Closed t)
    (same : (ts.flatMap fun t => t ++ [unit ',']) = ts'.flatMap fun t => t ++ [unit ',']) :
    ts = ts' := by
  induction ts generalizing ts' with
  | nil =>
    cases ts' with
    | nil => rfl
    | cons t' ts' => simp at same
  | cons t ts ih =>
    cases ts' with
    | nil => simp at same
    | cons t' ts' =>
      rw [List.forall_mem_cons] at closed closed'
      simp only [List.flatMap_cons, List.append_assoc, List.singleton_append] at same
      obtain ⟨rfl, others⟩ := closed_append_inj closed.1 closed'.1 same
      rw [ih closed.2 closed'.2 others]

theorem join_append_comma (ne : ts ≠ []) :
    Text.join "," ts ++ [unit ','] = ts.flatMap fun t => t ++ [unit ','] := by
  induction ts using Text.join.induct with
  | case1 => exact absurd rfl ne
  | case2 t => simp [Text.join]
  | case3 t t' ts ih =>
    rw [Text.join, List.append_assoc, ih (List.cons_ne_nil _ _), List.flatMap_cons]
    rfl

theorem join_ne_nil (full : ∀ t ∈ ts, t ≠ []) (ne : ts ≠ []) : Text.join "," ts ≠ [] := by
  cases ts with
  | nil => exact absurd rfl ne
  | cons t ts =>
    have first := full t List.mem_cons_self
    cases ts with
    | nil => exact first
    | cons t' ts => simp [Text.join, first]

/-- Closed texts with commas between them are told apart, if none of them is empty. -/
theorem join_inj (closed : ∀ t ∈ ts, Closed t ∧ t ≠ []) (closed' : ∀ t ∈ ts', Closed t ∧ t ≠ [])
    (same : Text.join "," ts = Text.join "," ts') : ts = ts' := by
  by_cases ne : ts = []
  · subst ne
    by_contra ne'
    exact join_ne_nil (fun t member => (closed' t member).2) (Ne.symm ne') same.symm
  · have ne' : ts' ≠ [] := by
      rintro rfl
      exact join_ne_nil (fun t member => (closed t member).2) ne same
    refine flatMap_comma_inj (fun t member => (closed t member).1)
      (fun t member => (closed' t member).1) ?_
    rw [← join_append_comma ne, ← join_append_comma ne', same]

end Lists

end RequestCompiler.Json
