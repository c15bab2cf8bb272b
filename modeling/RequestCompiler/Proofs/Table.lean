import Mathlib.Algebra.GroupWithZero.Nat
import Mathlib.Data.List.Induction
import Mathlib.Data.List.Nodup
import RequestCompiler.Json
import RequestCompiler.Table

/-!
# Setting the values of a table

Setting a value changes the lookup of its key only (`get?_set`), and keys stay distinct (`nodup_set`). Pairs
with distinct keys make up a table as they are (`ofList_eq_self`).
-/

namespace RequestCompiler.Table

variable {α : Type} {k l : Text}

theorem get?_cons (p : Text × α) (t : Table α) (l : Text) :
    Fields.get? (p :: t) l = if p.1 = l then some p.2 else Fields.get? t l := by
  unfold Fields.get?
  by_cases same : p.1 = l
  · rw [List.find?_cons_of_pos (by simpa using same), if_pos same]
    rfl
  · rw [List.find?_cons_of_neg (by simpa using same), if_neg same]

theorem get?_set (t : Table α) (k l : Text) (v : α) :
    Fields.get? (t.set k v) l = if k = l then some v else Fields.get? t l := by
  induction t with
  | nil => rw [set, get?_cons]
  | cons p t ih =>
    by_cases here : p.1 = k
    · rw [set, if_pos here, get?_cons, get?_cons, here]
      split <;> rfl
    · rw [set, if_neg here, get?_cons, get?_cons, ih]
      by_cases found : p.1 = l
      · have other : k ≠ l := fun same => here (found.trans same.symm)
        rw [if_pos found, if_neg other, if_pos found]
      · rw [if_neg found, if_neg found]

theorem mem_keys_set (t : Table α) (v : α) : l ∈ (t.set k v).map Prod.fst ↔ l = k ∨ l ∈ t.map Prod.fst := by
  induction t with
  | nil => exact List.mem_cons
  | cons p t ih =>
    by_cases here : p.1 = k
    · rw [set, if_pos here, List.map_cons, List.mem_cons, List.map_cons, List.mem_cons, here]
      exact or_self_left.symm
    · rw [set, if_neg here, List.map_cons, List.mem_cons, List.map_cons, List.mem_cons, ih]
      exact or_left_comm

theorem nodup_set {t : Table α} (distinct : (t.map Prod.fst).Nodup) (k : Text) (v : α) :
    ((t.set k v).map Prod.fst).Nodup := by
  induction t with
  | nil => exact List.nodup_singleton k
  | cons p t ih =>
    rw [List.map_cons, List.nodup_cons] at distinct
    by_cases here : p.1 = k
    · rw [set, if_pos here, List.map_cons, List.nodup_cons, ← here]
      exact distinct
    · rw [set, if_neg here, List.map_cons, List.nodup_cons, mem_keys_set]
      exact ⟨not_or.2 ⟨here, distinct.1⟩, ih distinct.2⟩

/-- A key that the table does not have comes behind all others. -/
theorem set_of_fresh {t : Table α} (fresh : k ∉ t.map Prod.fst) (v : α) : t.set k v = t ++ [(k, v)] := by
  induction t with
  | nil => rfl
  | cons p t ih =>
    rw [List.map_cons, List.mem_cons, not_or] at fresh
    rw [set, if_neg (Ne.symm fresh.1), ih fresh.2, List.cons_append]

theorem ofList_concat (ps : List (Text × α)) (p : Text × α) :
    ofList (ps ++ [p]) = (ofList ps).set p.1 p.2 := by
  rw [ofList, List.foldl_concat]
  rfl

theorem ofList_eq_self {ps : List (Text × α)} (distinct : (ps.map Prod.fst).Nodup) : ofList ps = ps := by
  induction ps using List.reverseRecOn with
  | nil => rfl
  | append_singleton ps p ih =>
    rw [List.map_append, List.nodup_append] at distinct
    obtain ⟨distinct, -, apart⟩ := distinct
    have fresh : p.1 ∉ ps.map Prod.fst := fun member => apart p.1 member p.1 List.mem_cons_self rfl
    rw [ofList_concat, ih distinct, set_of_fresh fresh]

/-- A sum of numbers by keys changes by what the set value adds to the one before. -/
theorem sum_set (t : Table Nat) (k : Text) (n : Nat) :
    ((t.set k n).map Prod.snd).sum + (Fields.get? t k).getD 0 = (t.map Prod.snd).sum + n := by
  induction t with
  | nil => exact Nat.add_comm _ _
  | cons p t ih =>
    by_cases here : p.1 = k
    · rw [set, if_pos here, get?_cons, if_pos here, List.map_cons, List.map_cons, List.sum_cons,
        List.sum_cons, Option.getD_some]
      omega
    · rw [set, if_neg here, get?_cons, if_neg here, List.map_cons, List.map_cons, List.sum_cons,
        List.sum_cons]
      omega

end RequestCompiler.Table
