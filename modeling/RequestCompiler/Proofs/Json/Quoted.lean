import RequestCompiler.Json.Quoted
import RequestCompiler.Proofs.Text.Utf8

/-!
# Quoted texts are read back

`unquote` inverts `quote`, whatever follows the closing quote (`unquote_escape`), so a quoted text
at the start of another one is found again (`quote_append_inj`). No lone surrogate is left in a
quoted text, for those are escaped (`wellFormed_quote`).
-/

namespace RequestCompiler.Text

theorem hexDigit?_hexUnit {d : Nat} (small : d < 16) : hexDigit? (hexUnit d) = some d := by
  interval_cases d <;> rfl

/-- A unit that a text between quotes holds as it is. -/
def IsOwn (u : UInt16) : Prop := u ≠ unit '"' ∧ u ≠ unit '\\' ∧ ¬u < 0x20

/-- A unit is escaped by a letter or by its number, or it is its own escaped form. -/
theorem escapeUnit_cases (u : UInt16) :
    (∃ l, l.toNat < 0x80 ∧ l ≠ unit 'u' ∧ escapedUnit? l = some u ∧
        escapeUnit u = [unit '\\', l]) ∨
      escapeUnit u = unicodeEscape u ∨ IsOwn u ∧ escapeUnit u = [u] := by
  by_cases letter : u ∈ [unit '"', unit '\\', 8, 9, 10, 12, 13]
  · left
    simp only [List.mem_cons, List.not_mem_nil, or_false] at letter
    rcases letter with rfl | rfl | rfl | rfl | rfl | rfl | rfl <;>
      exact ⟨_, by decide, by decide, rfl, rfl⟩
  · right
    simp only [List.mem_cons, List.not_mem_nil, or_false, not_or] at letter
    obtain ⟨quote, backslash, b, t, n, f, r⟩ := letter
    by_cases control : u < 0x20
    · simp only [escapeUnit, if_neg quote, if_neg backslash, if_neg b, if_neg t, if_neg n, if_neg f,
        if_neg r, if_pos control, true_or]
    · right
      refine ⟨⟨quote, backslash, control⟩, ?_⟩
      simp only [escapeUnit, if_neg quote, if_neg backslash, if_neg b, if_neg t, if_neg n, if_neg f,
        if_neg r, if_neg control]

theorem isOwn_of_surrogate {u : UInt16} (surrogate : isHigh u = true ∨ isLow u = true) : IsOwn u := by
  have above : 0xD800 ≤ u.toNat := by
    rw [isHigh_iff, isLow_iff] at surrogate
    omega
  have apart : ∀ v : UInt16, v.toNat < 0xD800 → u ≠ v := by
    rintro v below rfl
    omega
  refine ⟨apart _ (by decide), apart _ (by decide), ?_⟩
  simp only [UInt16.lt_iff_toNat_lt, UInt16.reduceToNat]
  omega

/-- Induction over a text beside its escaped form: a unit is written as a letter, as its number or as
itself, and a surrogate pair as itself. -/
theorem escape_induction {motive : Text → Text → Prop} (nil : motive [] [])
    (letter : ∀ u l t e, l.toNat < 0x80 → l ≠ unit 'u' → escapedUnit? l = some u → motive t e →
      motive (u :: t) (unit '\\' :: l :: e))
    (number : ∀ u t e, motive t e → motive (u :: t) (unicodeEscape u ++ e))
    (own : ∀ u t e, IsOwn u → isHigh u = false → isLow u = false → motive t e →
      motive (u :: t) (u :: e))
    (pair : ∀ u v t e, isHigh u = true → isLow v = true → motive t e →
      motive (u :: v :: t) (u :: v :: e)) (t : Text) : motive t (escape t) := by
  have plain : ∀ u t e, ¬(isHigh u || isLow u) = true → motive t e →
      motive (u :: t) (escapeUnit u ++ e) := by
    intro u t e notSurrogate rest
    rw [Bool.or_eq_true, not_or, Bool.not_eq_true, Bool.not_eq_true] at notSurrogate
    rcases escapeUnit_cases u with ⟨l, ascii, single, value, written⟩ | written | ⟨isOwn, written⟩
    · exact written ▸ letter u l t e ascii single value rest
    · exact written ▸ number u t e rest
    · exact written ▸ own u t e isOwn notSurrogate.1 notSurrogate.2 rest
  induction t using escape.induct with
  | case1 => exact nil
  | case2 u surrogate =>
    rw [escape, if_pos surrogate, ← List.append_nil (unicodeEscape u)]
    exact number u [] [] nil
  | case3 u notSurrogate =>
    rw [escape, if_neg notSurrogate, ← List.append_nil (escapeUnit u)]
    exact plain u [] [] notSurrogate nil
  | case4 u v t both ih =>
    rw [escape, if_pos both]
    rw [Bool.and_eq_true] at both
    exact pair u v t _ both.1 both.2 ih
  | case5 u v t both surrogate ih =>
    rw [escape, if_neg both, if_pos surrogate]
    exact number u _ _ ih
  | case6 u v t both notSurrogate ih =>
    rw [escape, if_neg both, if_neg notSurrogate]
    exact plain u _ _ notSurrogate ih

section Unquote

variable {u : UInt16} {s t r r' : Text}

theorem unquoteFrom_own (own : IsOwn u) :
    unquoteFrom .plain (u :: r) = (unquoteFrom .plain r).map fun p => (u :: p.1, p.2) := by
  simp only [unquoteFrom, if_neg own.1, if_neg own.2.1, if_neg own.2.2]

theorem unquoteFrom_letter {l : UInt16} (single : l ≠ unit 'u') (value : escapedUnit? l = some u) :
    unquoteFrom .plain (unit '\\' :: l :: r) =
      (unquoteFrom .plain r).map fun p => (u :: p.1, p.2) := by
  have backslash : unit '\\' ≠ unit '"' := by decide
  simp only [unquoteFrom, if_neg backslash, if_true, if_neg single, value]

theorem unquoteFrom_unicodeEscape :
    unquoteFrom .plain (unicodeEscape u ++ r) =
      (unquoteFrom .plain r).map fun p => (u :: p.1, p.2) := by
  have bound := u.toNat_lt
  have backslash : unit '\\' ≠ unit '"' := by decide
  have d₁ := hexDigit?_hexUnit (d := u.toNat / 4096) (by omega)
  have d₂ := hexDigit?_hexUnit (d := u.toNat / 256 % 16) (by omega)
  have d₃ := hexDigit?_hexUnit (d := u.toNat / 16 % 16) (by omega)
  have d₄ := hexDigit?_hexUnit (d := u.toNat % 16) (by omega)
  have digits : (((0 * 16 + u.toNat / 4096) * 16 + u.toNat / 256 % 16) * 16 + u.toNat / 16 % 16) * 16
      + u.toNat % 16 = u.toNat := by omega
  simp only [unicodeEscape, List.cons_append, List.nil_append, unquoteFrom, if_neg backslash, if_true,
    d₁, d₂, d₃, d₄, Nat.reduceLeDiff, if_false, Nat.reduceSub, le_refl, digits]
  rw [Nat.toUInt16_eq, UInt16.ofNat_toNat]

/-- The escaped units up to the closing quote are read back. -/
theorem unquote_escape (t r : Text) : unquote (escape t ++ unit '"' :: r) = some (t, r) := by
  unfold unquote
  induction t using escape_induction with
  | nil => simp [unquoteFrom]
  | letter u l t e ascii single value ih =>
    rw [List.cons_append, List.cons_append, unquoteFrom_letter single value, ih]
    rfl
  | number u t e ih =>
    rw [List.append_assoc, unquoteFrom_unicodeEscape, ih]
    rfl
  | own u t e isOwn high low ih =>
    rw [List.cons_append, unquoteFrom_own isOwn, ih]
    rfl
  | pair u v t e high low ih =>
    rw [List.cons_append, List.cons_append, unquoteFrom_own (isOwn_of_surrogate (.inl high)),
      unquoteFrom_own (isOwn_of_surrogate (.inr low)), ih]
    rfl

/-- A quoted text at the start of a text ends where it was written to. -/
theorem quote_append_inj : quote s ++ r = quote t ++ r' ↔ s = t ∧ r = r' := by
  constructor
  · intro same
    simp only [quote, List.cons_append, List.append_assoc, List.nil_append] at same
    have read := unquote_escape s r
    rw [(List.cons.inj same).2, unquote_escape] at read
    obtain ⟨rfl, rfl⟩ := Prod.mk.inj (Option.some.inj read)
    exact ⟨rfl, rfl⟩
  · rintro ⟨rfl, rfl⟩
    rfl

end Unquote

section WellFormed

theorem toNat_hexUnit_lt {d : Nat} (small : d < 16) : (hexUnit d).toNat < 0x80 := by
  interval_cases d <;> decide

theorem wellFormed_unicodeEscape (u : UInt16) : (unicodeEscape u).wellFormed = true := by
  have bound := u.toNat_lt
  have d₁ := toNat_hexUnit_lt (d := u.toNat / 4096) (by omega)
  have d₂ := toNat_hexUnit_lt (d := u.toNat / 256 % 16) (by omega)
  have d₃ := toNat_hexUnit_lt (d := u.toNat / 16 % 16) (by omega)
  have d₄ := toNat_hexUnit_lt (d := u.toNat % 16) (by omega)
  refine wellFormed_of_lt ?_
  simp only [unicodeEscape, List.forall_mem_cons]
  refine ⟨by decide, by decide, ?_, ?_, ?_, ?_, nofun⟩ <;> omega

theorem wellFormed_escape (t : Text) : (escape t).wellFormed = true := by
  induction t using escape_induction with
  | nil => rfl
  | letter u l t e ascii single value ih =>
    have pieces : wellFormed [unit '\\', l] = true := by
      refine wellFormed_of_lt ?_
      simp only [List.forall_mem_cons]
      exact ⟨by decide, by omega, nofun⟩
    exact (wellFormed_append pieces e).trans ih
  | number u t e ih => rw [wellFormed_append (wellFormed_unicodeEscape u), ih]
  | own u t e isOwn high low ih => rw [wellFormed_cons high low, ih]
  | pair u v t e high low ih => rw [wellFormed_pair high low, ih]

/-- Between quotes every surrogate has its partner. -/
theorem wellFormed_quote (t : Text) : (quote t).wellFormed = true := by
  rw [quote, List.cons_append, wellFormed_cons (by decide) (by decide),
    wellFormed_append (wellFormed_escape t)]
  rfl

end WellFormed

end RequestCompiler.Text
