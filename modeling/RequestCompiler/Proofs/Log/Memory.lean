import RequestCompiler.Log.Store
import RequestCompiler.Proofs.Lookup
import RequestCompiler.Proofs.Text.Pieces

/-!
# Logs in memory

The raw text of a log in memory is that of its lines, each with a line end (`readRaw_eq`). One more line
comes behind it (`readRaw_append`) and leaves every other log as it was (`readRaw_append_other`).
-/

namespace RequestCompiler.MemoryLog

variable {l : MemoryLog} {name other line : Text}

/-- Lines with line ends between them and one at the end are lines with a line end each. -/
theorem join_append_feed (ls : List Text) (some : ls ≠ []) :
    Text.join [unit '\n'] ls ++ [unit '\n'] = ls.flatMap (· ++ [unit '\n']) := by
  induction ls with
  | nil => exact absurd rfl some
  | cons line ls ih =>
    by_cases last : ls = []
    · rw [last, Text.join, List.flatMap_singleton]
    · rw [Text.join_cons last, List.append_assoc, List.cons_append, ih last, List.flatMap_cons,
        List.append_assoc, List.singleton_append]

theorem readRaw_eq (l : MemoryLog) (name : Text) :
    l.readRaw name = (l.lines name).flatMap (· ++ [unit '\n']) := by
  rw [readRaw]
  split
  · rename_i none
    rw [List.isEmpty_iff.1 none, List.flatMap_nil]
  · rename_i some
    exact join_append_feed _ (by simpa using some)

theorem lines_append (l : MemoryLog) (name line : Text) :
    (l.append name line).lines name = l.lines name ++ [line] := by
  simp [append, lines]

theorem lines_append_other (l : MemoryLog) (line : Text) (ne : other ≠ name) :
    (l.append name line).lines other = l.lines other := by
  have apart : (name == other) = false := by simpa using Ne.symm ne
  rw [lines, append, List.find?_cons]
  simp only [apart]
  rw [find?_filter_other ne, lines]

theorem readRaw_empty (name : Text) : empty.readRaw name = [] := rfl

theorem readRaw_append (l : MemoryLog) (name line : Text) :
    (l.append name line).readRaw name = l.readRaw name ++ (line ++ [unit '\n']) := by
  rw [readRaw_eq, readRaw_eq, lines_append, List.flatMap_append, List.flatMap_singleton]

theorem readRaw_append_other (l : MemoryLog) (line : Text) (ne : other ≠ name) :
    (l.append name line).readRaw other = l.readRaw other := by
  rw [readRaw, readRaw, lines_append_other l line ne]

end RequestCompiler.MemoryLog
