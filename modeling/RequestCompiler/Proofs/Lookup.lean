import Mathlib.Data.List.Nodup

/-!
# Looking up by keys

The first element with a key is the only one if keys are distinct, and it is still found when elements
with another key are left out.
-/

namespace RequestCompiler

variable {α κ : Type} [BEq κ] [LawfulBEq κ]

/-- Under distinct keys, an element is the first one with its key. -/
theorem find?_key_eq_some {key : α → κ} {as : List α} (distinct : (as.map key).Nodup) {a : α}
    (member : a ∈ as) : (as.find? fun b => key b == key a) = some a := by
  obtain ⟨before, after, split⟩ := List.append_of_mem member
  rw [List.find?_eq_some_iff_append]
  refine ⟨beq_self_eq_true _, before, after, split, fun b hb => ?_⟩
  rw [split, List.map_append, List.nodup_append] at distinct
  have apart := distinct.2.2 (key b) (List.mem_map_of_mem hb) (key a) (by simp)
  simpa using apart

/-- What is looked up under a key that is kept does not depend on the entries of the other keys. -/
theorem find?_filter_key {k : κ} (keep : κ → Bool) (kept : keep k = true) (ps : List (κ × α)) :
    ((ps.filter fun p => keep p.1).find? fun p => p.1 == k) = ps.find? fun p => p.1 == k := by
  rw [List.find?_filter]
  congr 1
  funext p
  by_cases here : p.1 = k
  · simp [here, kept]
  · simp [here]

theorem find?_filter_other {k other : κ} (ne : other ≠ k) (ps : List (κ × α)) :
    ((ps.filter fun p => p.1 != k).find? fun p => p.1 == other) = ps.find? fun p => p.1 == other :=
  find?_filter_key (· != k) (bne_iff_ne.2 ne) ps

end RequestCompiler
