import Mathlib.Data.List.Basic
import Mathlib.Tactic.IntervalCases
import RequestCompiler.Text.Utf8

/-!
# Texts and their UTF-8 bytes

A text without a lone surrogate is read back from its UTF-8 bytes (`ofUtf8_utf8`), so two such texts
with the same bytes are the same (`utf8_inj`).
-/

namespace RequestCompiler.Text

/-- A code point that UTF-8 has bytes for. -/
def IsScalar (p : Nat) : Prop := p < 0x110000 ∧ ¬(0xD800 ≤ p ∧ p ≤ 0xDFFF)

section Bytes

theorem toNat_toUInt8 {n : Nat} (small : n < 256) : n.toUInt8.toNat = n := by
  simp [Nat.mod_eq_of_lt small]

theorem beginPoint_one {p : Nat} (ascii : p < 0x80) : beginPoint p.toUInt8 = (none, ofPoint p) := by
  interval_cases p <;> rfl

theorem beginPoint_two {h : Nat} (least : 2 ≤ h) (most : h < 0x20) :
    beginPoint (0xC0 + h).toUInt8 = (some ⟨1, 0x80, 0xBF, h⟩, []) := by
  interval_cases h <;> rfl

theorem beginPoint_three {h : Nat} (most : h < 0x10) :
    beginPoint (0xE0 + h).toUInt8 =
      (some ⟨2, if h = 0 then 0xA0 else 0x80, if h = 0xD then 0x9F else 0xBF, h⟩, []) := by
  interval_cases h <;> rfl

theorem beginPoint_four {h : Nat} (most : h < 5) :
    beginPoint (0xF0 + h).toUInt8 =
      (some ⟨3, if h = 0 then 0x90 else 0x80, if h = 4 then 0x8F else 0xBF, h⟩, []) := by
  interval_cases h <;> rfl

section Open

variable {x bits : Nat} {low high : UInt8} (six : x < 0x40) (least : low.toNat ≤ 0x80 + x)
  (most : 0x80 + x ≤ high.toNat) (r : List UInt8)

include six least most

/-- A byte within the bounds of an open point goes on with it, by six bits. -/
theorem ofUtf8From_some (left : Nat) :
    ofUtf8From (some ⟨left, low, high, bits⟩) ((0x80 + x).toUInt8 :: r) =
      if left ≤ 1 then ofPoint (bits * 0x40 + x) ++ ofUtf8From none r
      else ofUtf8From (some ⟨left - 1, 0x80, 0xBF, bits * 0x40 + x⟩) r := by
  have byte : (0x80 + x).toUInt8.toNat = 0x80 + x := toNat_toUInt8 (by omega)
  have inBounds : ¬((0x80 + x).toUInt8 < low ∨ high < (0x80 + x).toUInt8) := by
    simp only [UInt8.lt_iff_toNat_lt, byte]
    omega
  rw [ofUtf8From]
  simp only [if_neg inBounds, byte, Nat.add_sub_cancel_left]

theorem ofUtf8From_last :
    ofUtf8From (some ⟨1, low, high, bits⟩) ((0x80 + x).toUInt8 :: r) =
      ofPoint (bits * 0x40 + x) ++ ofUtf8From none r := by
  rw [ofUtf8From_some six least most, if_pos le_rfl]

theorem ofUtf8From_more (left : Nat) :
    ofUtf8From (some ⟨left + 2, low, high, bits⟩) ((0x80 + x).toUInt8 :: r) =
      ofUtf8From (some ⟨left + 1, 0x80, 0xBF, bits * 0x40 + x⟩) r := by
  rw [ofUtf8From_some six least most, if_neg (by omega)]
  rfl

end Open

/-- The bytes of a point are read as that point. -/
theorem ofUtf8From_utf8Point {p : Nat} (scalar : IsScalar p) (r : List UInt8) :
    ofUtf8From none (utf8Point p ++ r) = ofPoint p ++ ofUtf8From none r := by
  obtain ⟨bound, notSurrogate⟩ := scalar
  have six : ∀ n, n % 0x40 < 0x40 := fun n => Nat.mod_lt n (by decide)
  have least : ∀ n, (0x80 : UInt8).toNat ≤ 0x80 + n % 0x40 := fun n => Nat.le_add_right 0x80 _
  have most : ∀ n, 0x80 + n % 0x40 ≤ (0xBF : UInt8).toNat := fun n =>
    Nat.add_le_add_left (Nat.le_of_lt_succ (six n)) 0x80
  unfold utf8Point
  by_cases one : p < 0x80
  · rw [if_pos one, List.singleton_append, ofUtf8From]
    simp only [beginPoint_one one]
  rw [if_neg one]
  by_cases two : p < 0x800
  · have begun := beginPoint_two (h := p / 0x40) (by omega) (by omega)
    have whole : p / 0x40 * 0x40 + p % 0x40 = p := by omega
    rw [if_pos two, List.cons_append, List.singleton_append, ofUtf8From]
    simp only [begun, List.nil_append]
    rw [ofUtf8From_last (six p) (least p) (most p), whole]
  rw [if_neg two, if_neg notSurrogate]
  by_cases three : p < 0x10000
  · have begun := beginPoint_three (h := p / 0x1000) (by omega)
    have whole : (p / 0x1000 * 0x40 + p / 0x40 % 0x40) * 0x40 + p % 0x40 = p := by omega
    -- The second byte is bounded more closely: shorter forms and surrogates are ruled out.
    have low : (if p / 0x1000 = 0 then (0xA0 : UInt8) else 0x80).toNat ≤ 0x80 + p / 0x40 % 0x40 := by
      split
      · change 0xA0 ≤ _
        omega
      · exact least _
    have high : 0x80 + p / 0x40 % 0x40 ≤ (if p / 0x1000 = 0xD then (0x9F : UInt8) else 0xBF).toNat := by
      split
      · change _ ≤ 0x9F
        omega
      · exact most _
    rw [if_pos three, List.cons_append, List.cons_append, List.singleton_append, ofUtf8From]
    simp only [begun, List.nil_append]
    rw [ofUtf8From_more (six _) low high, ofUtf8From_last (six p) (least p) (most p), whole]
  · have begun := beginPoint_four (h := p / 0x40000) (by omega)
    have whole : ((p / 0x40000 * 0x40 + p / 0x1000 % 0x40) * 0x40 + p / 0x40 % 0x40) * 0x40
        + p % 0x40 = p := by omega
    have low : (if p / 0x40000 = 0 then (0x90 : UInt8) else 0x80).toNat ≤
        0x80 + p / 0x1000 % 0x40 := by
      split
      · change 0x90 ≤ _
        omega
      · exact least _
    have high : 0x80 + p / 0x1000 % 0x40 ≤
        (if p / 0x40000 = 4 then (0x8F : UInt8) else 0xBF).toNat := by
      split
      · change _ ≤ 0x8F
        omega
      · exact most _
    rw [if_neg three, List.cons_append, List.cons_append, List.cons_append, List.singleton_append,
      ofUtf8From]
    simp only [begun, List.nil_append]
    rw [ofUtf8From_more (six _) low high, ofUtf8From_more (six _) (least _) (most _),
      ofUtf8From_last (six p) (least p) (most p), whole]

theorem ofUtf8_points {ps : List Nat} (scalars : ∀ p ∈ ps, IsScalar p) :
    ofUtf8 (ps.flatMap utf8Point) = ps.flatMap ofPoint := by
  induction ps with
  | nil => rfl
  | cons p ps ih =>
    rw [List.forall_mem_cons] at scalars
    rw [ofUtf8, List.flatMap_cons, ofUtf8From_utf8Point scalars.1, List.flatMap_cons]
    exact congrArg _ (ih scalars.2)

end Bytes

section Points

theorem isHigh_iff {u : UInt16} : isHigh u = true ↔ 0xD800 ≤ u.toNat ∧ u.toNat ≤ 0xDBFF := by
  simp [isHigh, UInt16.le_iff_toNat_le]

theorem isLow_iff {u : UInt16} : isLow u = true ↔ 0xDC00 ≤ u.toNat ∧ u.toNat ≤ 0xDFFF := by
  simp [isLow, UInt16.le_iff_toNat_le]

theorem ofPoint_pairPoint {u v : UInt16} (high : isHigh u = true) (low : isLow v = true) :
    ofPoint (pairPoint u v) = [u, v] := by
  obtain ⟨hu, hu'⟩ := isHigh_iff.1 high
  obtain ⟨hv, hv'⟩ := isLow_iff.1 low
  have whole : ¬pairPoint u v < 0x10000 := by
    unfold pairPoint
    omega
  have first : 0xD800 + (pairPoint u v - 0x10000) / 0x400 = u.toNat := by
    unfold pairPoint
    omega
  have second : 0xDC00 + (pairPoint u v - 0x10000) % 0x400 = v.toNat := by
    unfold pairPoint
    omega
  rw [ofPoint, if_neg whole, first, second]
  simp

theorem isScalar_pairPoint {u v : UInt16} (high : isHigh u = true) (low : isLow v = true) :
    IsScalar (pairPoint u v) := by
  obtain ⟨hu, hu'⟩ := isHigh_iff.1 high
  obtain ⟨hv, hv'⟩ := isLow_iff.1 low
  unfold IsScalar pairPoint
  omega

theorem isScalar_toNat {u : UInt16} (high : isHigh u = false) (low : isLow u = false) :
    IsScalar u.toNat := by
  have bound := u.toNat_lt
  have notHigh := isHigh_iff.not.1 (Bool.not_eq_true _ ▸ high)
  have notLow := isLow_iff.not.1 (Bool.not_eq_true _ ▸ low)
  unfold IsScalar
  omega

theorem ofPoint_toNat (u : UInt16) : ofPoint u.toNat = [u] := by
  have bound := u.toNat_lt
  simp [ofPoint, bound]

/-- The points of a text have its units. -/
theorem ofPoint_points (t : Text) : t.points.flatMap ofPoint = t := by
  induction t using points.induct with
  | case1 => rfl
  | case2 u => simp [points, ofPoint_toNat]
  | case3 u v r pair ih =>
    rw [Bool.and_eq_true] at pair
    rw [points, if_pos (by simp [pair]), List.flatMap_cons, ofPoint_pairPoint pair.1 pair.2, ih]
    rfl
  | case4 u v r alone ih =>
    rw [points, if_neg alone, List.flatMap_cons, ofPoint_toNat, ih]
    rfl

/-- Without a lone surrogate every point has bytes. -/
theorem isScalar_points {t : Text} (whole : t.wellFormed = true) : ∀ p ∈ t.points, IsScalar p := by
  induction t using points.induct with
  | case1 => exact nofun
  | case2 u =>
    rw [wellFormed, Bool.and_eq_true, Bool.not_eq_true', Bool.not_eq_true'] at whole
    simpa [points] using isScalar_toNat whole.1 whole.2
  | case3 u v r pair ih =>
    rw [Bool.and_eq_true] at pair
    rw [wellFormed, if_pos pair.1, Bool.and_eq_true] at whole
    rw [points, if_pos (by simp [pair])]
    exact List.forall_mem_cons.2 ⟨isScalar_pairPoint pair.1 pair.2, ih whole.2⟩
  | case4 u v r alone ih =>
    rw [wellFormed] at whole
    rw [points, if_neg alone]
    by_cases high : isHigh u = true
    · rw [if_pos high, Bool.and_eq_true] at whole
      exact absurd (by simp [high, whole.1]) alone
    · rw [if_neg high, Bool.and_eq_true, Bool.not_eq_true'] at whole
      exact List.forall_mem_cons.2 ⟨isScalar_toNat (by simpa using high) whole.1, ih whole.2⟩

end Points

section WellFormed

variable {u v : UInt16} {s : Text}

theorem wellFormed_cons (high : isHigh u = false) (low : isLow u = false) (r : Text) :
    wellFormed (u :: r) = wellFormed r := by
  cases r with
  | nil => simp [wellFormed, high, low]
  | cons v r => simp [wellFormed, high, low]

theorem wellFormed_pair (high : isHigh u = true) (low : isLow v = true) (r : Text) :
    wellFormed (u :: v :: r) = wellFormed r := by
  simp [wellFormed, high, low]

/-- Behind a text without a lone surrogate, what follows decides. -/
theorem wellFormed_append (whole : s.wellFormed = true) (r : Text) :
    (s ++ r).wellFormed = r.wellFormed := by
  induction s using wellFormed.induct with
  | case1 => rfl
  | case2 u =>
    rw [wellFormed, Bool.and_eq_true, Bool.not_eq_true', Bool.not_eq_true'] at whole
    exact wellFormed_cons whole.1 whole.2 r
  | case3 u v t high ih =>
    rw [wellFormed, if_pos high, Bool.and_eq_true] at whole
    exact (wellFormed_pair high whole.1 _).trans (ih whole.2)
  | case4 u v t high ih =>
    rw [wellFormed, if_neg high, Bool.and_eq_true, Bool.not_eq_true'] at whole
    exact (wellFormed_cons (by simpa using high) whole.1 _).trans (ih whole.2)

/-- Texts without lone surrogates, with such a text between neighbours, make up one. -/
theorem wellFormed_join {sep : Text} {ts : List Text} (between : sep.wellFormed = true)
    (each : ∀ t ∈ ts, t.wellFormed = true) : (join sep ts).wellFormed = true := by
  induction ts using join.induct with
  | case1 => rfl
  | case2 t => exact each t List.mem_cons_self
  | case3 t t' ts ih =>
    rw [List.forall_mem_cons] at each
    rw [join, List.append_assoc, wellFormed_append each.1, wellFormed_append between]
    exact ih each.2

/-- Below the surrogates no unit is one. -/
theorem wellFormed_of_lt (below : ∀ u ∈ s, u.toNat < 0xD800) : s.wellFormed = true := by
  induction s with
  | nil => rfl
  | cons u s ih =>
    rw [List.forall_mem_cons] at below
    have high : isHigh u = false := by
      rw [← Bool.not_eq_true, isHigh_iff]
      omega
    have low : isLow u = false := by
      rw [← Bool.not_eq_true, isLow_iff]
      omega
    rw [wellFormed_cons high low, ih below.2]

end WellFormed

/-- A text without a lone surrogate is its own encodable form. -/
theorem scrub_eq_self {t : Text} (whole : t.wellFormed = true) : t.scrub = t := by
  have same : t.scrub = t.points.flatMap ofPoint :=
    List.flatMap_congr fun p member => if_neg (isScalar_points whole p member).2
  rw [same, ofPoint_points]

/-- A text without a lone surrogate is read back from its bytes. -/
theorem ofUtf8_utf8 {t : Text} (whole : t.wellFormed = true) : ofUtf8 t.utf8 = t := by
  rw [utf8, ofUtf8_points (isScalar_points whole), ofPoint_points]

/-- Texts without lone surrogates have different bytes if they differ. -/
theorem utf8_inj {s t : Text} (whole : s.wellFormed = true) (whole' : t.wellFormed = true) :
    s.utf8 = t.utf8 ↔ s = t := by
  refine ⟨fun same => ?_, congrArg utf8⟩
  rw [← ofUtf8_utf8 whole, same, ofUtf8_utf8 whole']

end RequestCompiler.Text
