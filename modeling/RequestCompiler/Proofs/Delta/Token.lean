import Mathlib.Data.List.Infix
import RequestCompiler.Proofs.Text.Words

/-!
# Delta tokens

`Delta.format_eq_ok_iff` says which deltas have a token, `Delta.parse_eq_ok_iff` which texts are
read as a delta: after trimming and one plus sign they are key, equals sign and value, and the
key ends at the first equals sign since no name holds one.
-/

namespace RequestCompiler

/-- Names are made of units that are no blanks. -/
theorem isBlank_of_isNameUnit {u : UInt16} (h : isNameUnit u = true) : Text.isBlank u = false := by
  simp [isNameUnit, Text.isBlank, UInt16.le_iff_toNat_le, ← UInt16.toNat_inj] at h ⊢
  omega

theorem isName_iff {t : Text} : isName t = true ↔ t ≠ [] ∧ ∀ u ∈ t, isNameUnit u = true := by
  simp [isName]

theorem isSolid_of_isName {t : Text} (h : isName t = true) : isSolid t = true := by
  obtain ⟨ne, units⟩ := isName_iff.1 h
  exact isSolid_iff.2 ⟨ne, fun u hu => isBlank_of_isNameUnit (units u hu)⟩

/-- A unit that no name may hold occurs in no name. -/
theorem not_mem_of_isName {t : Text} {u : UInt16} (h : isName t = true)
    (hu : isNameUnit u = false) : u ∉ t := fun member => by
  simp [(isName_iff.1 h).2 u member] at hu

namespace Delta

theorem isRenderable_iff {d : Delta} :
    d.isRenderable = true ↔ isName d.key = true ∧ isSolid d.value = true := by
  simp [isRenderable]

/-- Exactly the renderable deltas are written, as their tokens. -/
theorem format_eq_ok_iff {d : Delta} {t : Text} :
    d.format = .ok t ↔ d.isRenderable = true ∧ t = d.token := by
  rw [isRenderable_iff]
  cases key : isName d.key <;> cases value : isSolid d.value <;> simp [format, key, value, eq_comm]

/-- What of a delta cannot be written: its key, or its value under a key that can. -/
inductive Unwritable (d : Delta) : InvariantViolation → Prop
  | key (bad : isName d.key = false) : Unwritable d (.deltaKey d.key)
  | value (good : isName d.key = true) (bad : isSolid d.value = false) :
      Unwritable d (.deltaValue d.value)

theorem format_eq_error_iff {d : Delta} {e : InvariantViolation} :
    d.format = .error e ↔ Unwritable d e := by
  unfold format
  constructor
  · intro refused
    cases key : isName d.key with
    | false =>
      simp only [key, Bool.not_false, if_true] at refused
      exact Except.error.inj refused ▸ .key key
    | true =>
      cases value : isSolid d.value with
      | false =>
        simp only [key, value, Bool.not_true, Bool.not_false, Bool.false_eq_true, if_true,
          if_false] at refused
        exact Except.error.inj refused ▸ .value key value
      | true => simp [key, value] at refused
  · rintro (bad | ⟨good, bad⟩)
    · simp [bad]
    · simp [good, bad]

theorem token_eq (d : Delta) : d.token = unit '+' :: (d.key ++ unit '=' :: d.value) := rfl

/-- The token of a renderable delta is one word. -/
theorem isSolid_token {d : Delta} (h : d.isRenderable = true) : isSolid d.token = true := by
  obtain ⟨key, value⟩ := isRenderable_iff.1 h
  have plus : Text.isBlank (unit '+') = false := by decide
  have equals : Text.isBlank (unit '=') = false := by decide
  rw [isSolid_iff, token_eq]
  refine ⟨List.cons_ne_nil _ _, fun u hu => ?_⟩
  simp only [List.mem_cons, List.mem_append] at hu
  rcases hu with rfl | hu | rfl | hu
  · exact plus
  · exact (isSolid_iff.1 (isSolid_of_isName key)).2 u hu
  · exact equals
  · exact (isSolid_iff.1 value).2 u hu

/-- The units before the first equals sign, and what is left behind them. -/
theorem takeWhile_key {key value : Text} (h : isName key = true) :
    (key ++ unit '=' :: value).takeWhile (· != unit '=') = key := by
  have inside : ∀ u ∈ key, (u != unit '=') = true := fun u hu =>
    bne_iff_ne.2 fun same => not_mem_of_isName h (by decide) (same ▸ hu)
  rw [List.takeWhile_append_of_pos inside, List.takeWhile_cons_of_neg (by simp), List.append_nil]

/-- What is left behind the units before the first equals sign starts with it. -/
theorem drop_takeWhile_eq_cons {t rest : Text} {u : UInt16}
    (h : t.drop (t.takeWhile (· != unit '=')).length = u :: rest) :
    t = t.takeWhile (· != unit '=') ++ unit '=' :: rest := by
  have split := List.prefix_append_drop (List.takeWhile_prefix (· != unit '=') (l := t))
  rw [h] at split
  have whole := List.takeWhile_append_dropWhile (p := (· != unit '=')) (l := t)
  have stop := List.head?_dropWhile_not (· != unit '=') t
  rw [List.append_cancel_left (whole.trans split)] at stop
  have equals : u = unit '=' := by simpa using stop
  rw [equals] at split
  exact split

/-- A text is read as a renderable delta if behind blanks and one plus sign it is that delta's
key, an equals sign and its value, and as no delta otherwise. -/
theorem parse_eq_ok_iff {source : Text} {d : Delta} :
    parse source = .ok d ↔
      d.isRenderable = true ∧ stripPlus source.trim = d.key ++ unit '=' :: d.value := by
  rw [isRenderable_iff]
  constructor
  · intro h
    simp only [parse] at h
    split at h
    · cases h
    · rename_i u value rest
      split at h
      · cases h
      split at h
      · cases h
      split at h
      · cases h
      rename_i key solid
      obtain rfl := Except.ok.inj h
      exact ⟨⟨by simpa using key, by simpa using solid⟩, drop_takeWhile_eq_cons rest⟩
  · rintro ⟨⟨key, value⟩, shape⟩
    have rest : (d.key ++ unit '=' :: d.value).drop d.key.length = unit '=' :: d.value := by simp
    have ne : d.key.isEmpty = false := by simpa using (isName_iff.1 key).1
    simp [parse, shape, takeWhile_key key, rest, ne, key, value]

/-- A token is read as its delta. -/
theorem parse_token {d : Delta} (renderable : d.isRenderable = true) : parse d.token = .ok d := by
  have solid := (isSolid_iff.1 (isSolid_token renderable)).2
  rw [parse_eq_ok_iff, Text.trim_eq_self_of_solid solid, token_eq]
  exact ⟨renderable, by simp [stripPlus]⟩

end Delta

end RequestCompiler
