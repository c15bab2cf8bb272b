import RequestCompiler.Text

/-!
# Blank units, trimming and words

The blanks are the space separators of Unicode, the tab, the line ends, the vertical tab,
the form feed, the line and paragraph separators and U+FEFF. U+0085, U+180E and U+200B are
no blanks.
-/

namespace RequestCompiler.Text

/-- White space and line ends. -/
def isBlank (u : UInt16) : Bool :=
  (9 ≤ u && u ≤ 13) || u == 0x20 || u == 0xA0 || u == 0x1680 || (0x2000 ≤ u && u ≤ 0x200A)
    || u == 0x2028 || u == 0x2029 || u == 0x202F || u == 0x205F || u == 0x3000 || u == 0xFEFF

/-- The text without its leading blanks. -/
def trimStart (t : Text) : Text := t.dropWhile isBlank

/-- The text without its trailing blanks. -/
def trimEnd (t : Text) : Text := (t.reverse.dropWhile isBlank).reverse

/-- The text without the blanks at its two ends. -/
def trim (t : Text) : Text := trimEnd (trimStart t)

/-- Nothing is left after trimming. -/
def isBlankText (t : Text) : Bool := t.all isBlank

/-- The pieces between maximal runs of blanks, where `inRun` says whether the unit before
the text was a blank. -/
def wordsFrom (inRun : Bool) : Text → List Text
  | [] => [[]]
  | u :: r =>
    if isBlank u then (if inRun then wordsFrom true r else [] :: wordsFrom true r)
    else consFirst u (wordsFrom false r)

/-- The pieces between maximal runs of blanks. A run at an end of the text leaves an empty
piece there. -/
def words (t : Text) : List Text := wordsFrom false t

end RequestCompiler.Text
