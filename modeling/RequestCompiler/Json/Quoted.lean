import RequestCompiler.Text

/-!
# Quoted text

`quote` writes a text between double quotes with the escapes of JSON; `unquote` reads such a
text after its opening quote. Control characters and surrogates without partner are written
as `\u` and four lower-case hexadecimal digits.
-/

namespace RequestCompiler.Text

/-- `\u` and the four hexadecimal digits of a unit. -/
def unicodeEscape (u : UInt16) : Text :=
  let n := u.toNat
  [unit '\\', unit 'u', hexUnit (n / 4096), hexUnit (n / 256 % 16), hexUnit (n / 16 % 16),
    hexUnit (n % 16)]

/-- The escaped form of a unit that is no surrogate. -/
def escapeUnit (u : UInt16) : Text :=
  if u = unit '"' then [unit '\\', unit '"']
  else if u = unit '\\' then [unit '\\', unit '\\']
  else if u = 8 then [unit '\\', unit 'b']
  else if u = 9 then [unit '\\', unit 't']
  else if u = 10 then [unit '\\', unit 'n']
  else if u = 12 then [unit '\\', unit 'f']
  else if u = 13 then [unit '\\', unit 'r']
  else if u < 0x20 then unicodeEscape u
  else [u]

/-- The escaped units of a text. -/
def escape : Text → Text
  | [] => []
  | [u] => if isHigh u || isLow u then unicodeEscape u else escapeUnit u
  | u :: v :: r =>
    if isHigh u && isLow v then u :: v :: escape r
    else if isHigh u || isLow u then unicodeEscape u ++ escape (v :: r)
    else escapeUnit u ++ escape (v :: r)

/-- The text between double quotes. -/
def quote (t : Text) : Text := unit '"' :: escape t ++ [unit '"']

/-- What the next unit of a quoted text belongs to. -/
inductive QuoteState
  | plain
  | escaped
  | code (value left : Nat)

/-- The unit that a single letter after the backslash stands for. -/
def escapedUnit? (u : UInt16) : Option UInt16 :=
  if u = unit '"' ∨ u = unit '\\' ∨ u = unit '/' then some u
  else if u = unit 'b' then some 8
  else if u = unit 'f' then some 12
  else if u = unit 'n' then some 10
  else if u = unit 'r' then some 13
  else if u = unit 't' then some 9
  else none

/-- The units up to the closing quote, and what follows it. -/
def unquoteFrom (state : QuoteState) : Text → Option (Text × Text)
  | [] => none
  | u :: r =>
    match state with
    | .plain =>
      if u = unit '"' then some ([], r)
      else if u = unit '\\' then unquoteFrom .escaped r
      else if u < 0x20 then none
      else (unquoteFrom .plain r).map fun p => (u :: p.1, p.2)
    | .escaped =>
      if u = unit 'u' then unquoteFrom (.code 0 4) r
      else
        match escapedUnit? u with
        | some v => (unquoteFrom .plain r).map fun p => (v :: p.1, p.2)
        | none => none
    | .code value left =>
      match hexDigit? u with
      | none => none
      | some d =>
        if left ≤ 1 then
          (unquoteFrom .plain r).map fun p => ((value * 16 + d).toUInt16 :: p.1, p.2)
        else unquoteFrom (.code (value * 16 + d) (left - 1)) r

/-- Reads a quoted text after its opening quote. -/
def unquote (t : Text) : Option (Text × Text) := unquoteFrom .plain t

end RequestCompiler.Text
