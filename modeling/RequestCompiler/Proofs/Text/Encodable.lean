import RequestCompiler.Proofs.Text.Context
import RequestCompiler.Proofs.Text.Pieces

/-!
# The encodable form of a text

The encodable form of a text has U+FFFD where the text has a lone surrogate. It holds no other unit that
the text does not hold (`eq_or_mem_of_mem_scrub`) and is no text without U+FFFD but the text itself
(`eq_of_scrub_eq`), and texts that are joined by a unit of their own have theirs one by one (`scrub_join`).
-/

namespace RequestCompiler.Text

variable {s t : Text} {u : UInt16}

theorem eq_or_mem_of_mem_scrub (member : u ∈ t.scrub) : u = 0xFFFD ∨ u ∈ t := by
  obtain ⟨p, point, own⟩ := List.mem_flatMap.1 member
  split at own
  · exact .inl (List.mem_singleton.1 own)
  · right
    rw [← ofPoint_points t]
    exact List.mem_flatMap.2 ⟨p, point, own⟩

theorem eq_of_scrub_eq (absent : (0xFFFD : UInt16) ∉ s) (same : t.scrub = s) : t = s := by
  have scalar : ∀ p ∈ t.points, ¬(0xD800 ≤ p ∧ p ≤ 0xDFFF) := by
    intro p point surrogate
    refine absent (same ▸ List.mem_flatMap.2 ⟨p, point, ?_⟩)
    rw [if_pos surrogate]
    exact List.mem_singleton_self _
  have own : t.scrub = t.points.flatMap ofPoint := List.flatMap_congr fun p point => if_neg (scalar p point)
  rw [← same, own, ofPoint_points]

section Joining

variable (high : isHigh u = false) (low : isLow u = false)
include high low

/-- A unit that is no surrogate keeps what stands around it apart. -/
theorem scrub_append_cons (s t : Text) : (s ++ u :: t).scrub = s.scrub ++ u :: t.scrub := by
  have before : Apart s (u :: t) := by
    intro _ _ v first _
    obtain rfl : u = v := by simpa using first
    exact low
  have after : Apart [u] t := by
    intro v last _ _ both
    obtain rfl : u = v := by simpa using last
    exact absurd both (by simp [high])
  have own : Text.scrub [u] = [u] := scrub_eq_self (by simp [wellFormed, high, low])
  have split : Text.scrub (u :: t) = u :: t.scrub := by
    rw [← List.singleton_append, scrub, points_append after, List.flatMap_append]
    exact congrArg (· ++ t.scrub) own
  rw [scrub, points_append before, List.flatMap_append]
  exact congrArg (s.scrub ++ ·) split

theorem scrub_join (ts : List Text) : (join [u] ts).scrub = join [u] (ts.map scrub) := by
  induction ts using join.induct with
  | case1 => rfl
  | case2 t => rfl
  | case3 t t' ts ih =>
    rw [join_cons (List.cons_ne_nil _ _), scrub_append_cons high low, ih]
    exact (join_cons (List.cons_ne_nil _ _) _).symm

end Joining

end RequestCompiler.Text
