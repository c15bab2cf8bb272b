import RequestCompiler.Text

/-!
# Styled text

A style wraps a text into the escape sequences of a terminal: a colour in 24 bits, and bold
inside it. The sequences are closed before each line end and opened again after it, so that
a style never reaches over a line. Text that has sequences of its own keeps the style behind
them. An empty text stays empty, and without colours every text stays as it is. What is shown
with styles takes a `Style.Painter`, so this is one way of showing them.
-/

namespace RequestCompiler

/-- A colour, with bold letters or not. -/
structure Style where
  red : Nat
  green : Nat
  blue : Nat
  bold : Bool
deriving DecidableEq, Repr

/-- An escape sequence that begins something, and the one that ends it. -/
structure Sequences where
  opening : Text
  closing : Text
deriving DecidableEq, Repr

namespace Sequences

def escape : UInt16 := 27

/-- A sequence with its parameters. -/
def sequence (parameters : Text) : Text := escape :: unit '[' :: parameters ++ [unit 'm']

def bold : Sequences := ⟨sequence "1", sequence "22"⟩

def color (red green blue : Nat) : Sequences :=
  ⟨sequence (Text.join ";" ["38", "2", Text.ofNat red, Text.ofNat green, Text.ofNat blue]),
    sequence "39"⟩

/-- Opens the sequence again wherever it is closed; `left` units of a closing sequence are
still to come. -/
def reopenFrom (s : Sequences) (left : Nat) : Text → Text
  | [] => []
  | u :: r =>
    let left := if left = 0 ∧ s.closing.isPrefixOf (u :: r) then s.closing.length else left
    u :: ((if left = 1 then s.opening else []) ++ reopenFrom s (left - 1) r)

/-- Opens the sequence again wherever it is closed. -/
def reopen (s : Sequences) (t : Text) : Text := s.reopenFrom 0 t

end Sequences

namespace Style

/-- The sequences of a style, the innermost first. -/
def sequences (s : Style) : List Sequences :=
  (if s.bold then [Sequences.bold] else []) ++ [Sequences.color s.red s.green s.blue]

/-- All sequences open. -/
def opening (s : Style) : Text := s.sequences.reverse.flatMap Sequences.opening

/-- All sequences closed. -/
def closing (s : Style) : Text := s.sequences.flatMap Sequences.closing

/-- Closes a style before each line end and opens it after. -/
def breakLines (opening closing : Text) : Text → Text
  | [] => []
  | u :: r =>
    if u = unit '\n' then closing ++ u :: (opening ++ breakLines opening closing r)
    else
      match r with
      | [] => [u]
      | v :: s =>
        if u = unit '\r' ∧ v = unit '\n' then
          closing ++ u :: v :: (opening ++ breakLines opening closing s)
        else u :: breakLines opening closing (v :: s)

/-- The text in a style, if colours are shown. -/
def apply (s : Style) (colors : Bool) (t : Text) : Text :=
  if !colors || t.isEmpty then t
  else
    let inner :=
      if t.any (· == Sequences.escape) then s.sequences.foldl (fun t q => q.reopen t) t else t
    s.opening ++ breakLines s.opening s.closing inner ++ s.closing

def plain (red green blue : Nat) : Style := ⟨red, green, blue, false⟩

/-! ## The palette -/

def accent : Style := plain 0x4F 0xC3 0xF7

def accentDim : Style := plain 0x02 0x77 0xBD

def body : Style := plain 0xC8 0xC8 0xC0

def bright : Style := plain 0xF2 0xF2 0xEC

def dim : Style := plain 0x44 0x44 0x44

def muted : Style := plain 0x66 0x66 0x66

def caution : Style := plain 0xD4 0x88 0x0A

def success : Style := plain 0x81 0xC7 0x84

def failure : Style := plain 0xCF 0x66 0x79

/-- The style with bold letters. -/
def inBold (s : Style) : Style := { s with bold := true }

/-- How a style shows in a text. -/
abbrev Painter := Style → Text → Text

/-- Paints with escape sequences, or leaves every text as it is. -/
def painter (colors : Bool) : Painter := fun s t => s.apply colors t

instance : Coe Bool Painter := ⟨painter⟩

end Style

end RequestCompiler
