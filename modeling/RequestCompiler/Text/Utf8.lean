import RequestCompiler.Text

/-!
# UTF-8 bytes of a text

A surrogate without its partner has no UTF-8 form and is written as U+FFFD. Reading never fails:
the bytes that begin a code point and do not go on as one are read as U+FFFD together.
-/

namespace RequestCompiler.Text

/-- The UTF-8 bytes of a code point below U+110000. -/
def utf8Point (p : Nat) : List UInt8 :=
  if p < 0x80 then [p.toUInt8]
  else if p < 0x800 then [(0xC0 + p / 0x40).toUInt8, (0x80 + p % 0x40).toUInt8]
  else if 0xD800 ≤ p ∧ p ≤ 0xDFFF then [0xEF, 0xBF, 0xBD]
  else if p < 0x10000 then
    [(0xE0 + p / 0x1000).toUInt8, (0x80 + p / 0x40 % 0x40).toUInt8, (0x80 + p % 0x40).toUInt8]
  else
    [(0xF0 + p / 0x40000).toUInt8, (0x80 + p / 0x1000 % 0x40).toUInt8,
      (0x80 + p / 0x40 % 0x40).toUInt8, (0x80 + p % 0x40).toUInt8]

/-- The UTF-8 bytes of a text. -/
def utf8 (t : Text) : List UInt8 := t.points.flatMap utf8Point

/-- A code point of which bytes are still to come: how many, between which bounds the next one
is, and the bits so far. -/
structure OpenPoint where
  left : Nat
  low : UInt8
  high : UInt8
  bits : Nat

/-- What the first byte of a code point begins, and what it is read as if that is nothing. -/
def beginPoint (b : UInt8) : Option OpenPoint × Text :=
  if b < 0x80 then (none, [b.toUInt16])
  else if 0xC2 ≤ b ∧ b ≤ 0xDF then (some ⟨1, 0x80, 0xBF, b.toNat - 0xC0⟩, [])
  else if 0xE0 ≤ b ∧ b ≤ 0xEF then
    let low := if b = 0xE0 then 0xA0 else 0x80
    let high := if b = 0xED then 0x9F else 0xBF
    (some ⟨2, low, high, b.toNat - 0xE0⟩, [])
  else if 0xF0 ≤ b ∧ b ≤ 0xF4 then
    let low := if b = 0xF0 then 0x90 else 0x80
    let high := if b = 0xF4 then 0x8F else 0xBF
    (some ⟨3, low, high, b.toNat - 0xF0⟩, [])
  else (none, [0xFFFD])

/-- The text of bytes, where a code point may have begun before them. -/
def ofUtf8From (pending : Option OpenPoint) : List UInt8 → Text
  | [] => if pending.isSome then [0xFFFD] else []
  | b :: r =>
    match pending with
    | none => (beginPoint b).2 ++ ofUtf8From (beginPoint b).1 r
    | some p =>
      let bits := p.bits * 0x40 + (b.toNat - 0x80)
      if b < p.low ∨ p.high < b then
        0xFFFD :: (beginPoint b).2 ++ ofUtf8From (beginPoint b).1 r
      else if p.left ≤ 1 then ofPoint bits ++ ofUtf8From none r
      else ofUtf8From (some ⟨p.left - 1, 0x80, 0xBF, bits⟩) r

/-- The text of UTF-8 bytes. -/
def ofUtf8 (bytes : List UInt8) : Text := ofUtf8From none bytes

end RequestCompiler.Text
