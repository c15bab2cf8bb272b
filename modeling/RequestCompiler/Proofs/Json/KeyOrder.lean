import Mathlib.Data.List.Induction
import RequestCompiler.Proofs.Json.Reordered
import RequestCompiler.Proofs.Lookup

/-!
# The order in which fields stand

Setting fields with distinct keys one after another keeps them all (`ofList_perm`), so each value is found
under its key (`get?_eq_some_iff`). Without array indices among the keys they also stay where they are
(`ofList_eq_self`), but a key that is one comes ahead of the greater indices and of the keys that are none.
Fields that were set in ascending order stand in the order `Ahead` (`ofList_ahead`), and `ascending_iff` tells
when that is the order of code units again.
-/

namespace RequestCompiler.Fields

variable {α : Type}

section Lookup

variable {fs gs : Fields α} {k : Text} {v : α}

/-- Under distinct keys, the value of a key is the one that stands with it. -/
theorem get?_eq_some_iff (distinct : (fs.map Prod.fst).Nodup) : get? fs k = some v ↔ (k, v) ∈ fs := by
  constructor
  · exact Json.mem_of_get?
  · intro member
    have first := find?_key_eq_some distinct member
    rw [get?, first]
    rfl

/-- Where distinct keys stand does not matter to a lookup. -/
theorem get?_perm (distinct : (fs.map Prod.fst).Nodup) (same : gs.Perm fs) : get? gs k = get? fs k := by
  apply Option.ext
  intro v
  have distinct' : (gs.map Prod.fst).Nodup := (same.map Prod.fst).nodup_iff.2 distinct
  rw [get?_eq_some_iff distinct, get?_eq_some_iff distinct', same.mem_iff]

end Lookup

section Kept

variable {fs ps : Fields α} {k : Text} {v : α}

theorem insert_perm (fresh : k ∉ fs.map Prod.fst) : (insert k v fs).Perm ((k, v) :: fs) := by
  induction fs with
  | nil => exact .refl _
  | cons f fs ih =>
    rw [List.map_cons, List.mem_cons, not_or] at fresh
    rw [insert, if_neg (Ne.symm fresh.1)]
    split
    · exact .refl _
    · exact ((ih fresh.2).cons f).trans (.swap (k, v) f fs)

theorem ofList_concat (ps : List (Text × α)) (p : Text × α) :
    ofList (ps ++ [p]) = insert p.1 p.2 (ofList ps) := by
  rw [ofList, List.foldl_concat]
  rfl

/-- Setting fields with distinct keys keeps each of them. -/
theorem ofList_perm (distinct : (ps.map Prod.fst).Nodup) : (ofList ps).Perm ps := by
  induction ps using List.reverseRecOn with
  | nil => exact .refl _
  | append_singleton ps p ih =>
    rw [List.map_append, List.nodup_append] at distinct
    obtain ⟨distinct, -, apart⟩ := distinct
    have kept := ih distinct
    have fresh : p.1 ∉ (ofList ps).map Prod.fst := by
      rw [(kept.map Prod.fst).mem_iff]
      intro member
      exact apart p.1 member p.1 List.mem_cons_self rfl
    rw [ofList_concat]
    exact (insert_perm fresh).trans ((kept.cons p).trans (List.perm_append_singleton p ps).symm)

/-- A key that is no index and that no field has comes last. -/
theorem insert_of_fresh (fresh : k ∉ fs.map Prod.fst) (plain : index? k = none) (v : α) :
    insert k v fs = fs ++ [(k, v)] := by
  induction fs with
  | nil => rfl
  | cons f fs ih =>
    rw [List.map_cons, List.mem_cons, not_or] at fresh
    have stays : precedes k f.1 = false := by simp [precedes, plain]
    rw [insert, if_neg (Ne.symm fresh.1), if_neg (by simp [stays]), ih fresh.2, List.cons_append]

/-- Fields with keys of their own that are no indices are in key order. -/
theorem ofList_eq_self (distinct : (fs.map Prod.fst).Nodup) (plain : ∀ k ∈ fs.map Prod.fst, index? k = none) :
    ofList fs = fs := by
  induction fs using List.reverseRecOn with
  | nil => rfl
  | append_singleton fs f ih =>
    rw [List.map_append, List.nodup_append] at distinct
    rw [List.map_append, List.forall_mem_append] at plain
    obtain ⟨distinct, -, apart⟩ := distinct
    have fresh : f.1 ∉ fs.map Prod.fst := fun member => apart f.1 member f.1 List.mem_cons_self rfl
    rw [ofList_concat, ih distinct plain.1, insert_of_fresh fresh (plain.2 f.1 List.mem_cons_self)]

end Kept

section Order

/-- The key is an array index, and the other one is a greater index or none. -/
def ComesFirst (k l : Text) : Prop := ∃ a, index? k = some a ∧ ∀ b, index? l = some b → a < b

theorem precedes_iff {k l : Text} : precedes k l = true ↔ ComesFirst k l := by
  unfold precedes ComesFirst
  cases index? k with
  | none => simp
  | some a =>
    cases index? l with
    | none => simp
    | some b => simp

theorem ComesFirst.asymm {k l : Text} (first : ComesFirst k l) : ¬ComesFirst l k := by
  rintro ⟨b, index, least⟩
  obtain ⟨a, index', least'⟩ := first
  exact absurd (least a index') (Nat.lt_asymm (least' b index))

/-- What comes first before a key also does before what does not come before that key. -/
theorem ComesFirst.of_not {k l m : Text} (first : ComesFirst k l) (later : ¬ComesFirst m l) :
    ComesFirst k m := by
  obtain ⟨a, index, least⟩ := first
  refine ⟨a, index, fun c index' => ?_⟩
  apply Nat.lt_of_not_le
  intro le
  exact later ⟨c, index', fun b index'' => Nat.lt_of_le_of_lt le (least b index'')⟩

/-- The order of fields that were set in ascending order: what comes first, then the order of code units. -/
def Ahead (k l : Text) : Prop := ComesFirst k l ∨ ¬ComesFirst l k ∧ k < l

theorem Ahead.not_comesFirst {k l : Text} (ahead : Ahead k l) : ¬ComesFirst l k :=
  ahead.elim ComesFirst.asymm And.left

variable {fs ps : Fields α} {k : Text} {v : α}

/-- A key that is above all others takes its place in the order. -/
theorem insert_ahead (ordered : (fs.map Prod.fst).Pairwise Ahead) (above : ∀ l ∈ fs.map Prod.fst, l < k) :
    ((insert k v fs).map Prod.fst).Pairwise Ahead := by
  induction fs with
  | nil => exact List.pairwise_singleton _ _
  | cons f fs ih =>
    rw [List.map_cons, List.pairwise_cons] at ordered
    rw [List.map_cons, List.forall_mem_cons] at above
    have differs : f.1 ≠ k := Std.ne_of_lt above.1
    rw [insert, if_neg differs]
    split
    · rename_i first
      rw [precedes_iff] at first
      refine List.pairwise_cons.2 ⟨?_, List.pairwise_cons.2 ordered⟩
      intro l member
      rcases List.mem_cons.1 member with rfl | member
      · exact .inl first
      · exact .inl (first.of_not (ordered.1 l member).not_comesFirst)
    · rename_i later
      rw [precedes_iff] at later
      have fresh : k ∉ fs.map Prod.fst := fun member => Std.lt_irrefl (above.2 k member)
      refine List.pairwise_cons.2 ⟨?_, ih ordered.2 above.2⟩
      intro l member
      rw [((insert_perm fresh).map Prod.fst).mem_iff] at member
      rcases List.mem_cons.1 member with rfl | member
      · exact .inr ⟨later, above.1⟩
      · exact ordered.1 l member

theorem ofList_ahead (ascending : (ps.map Prod.fst).Pairwise (· < ·)) :
    ((ofList ps).map Prod.fst).Pairwise Ahead := by
  induction ps using List.reverseRecOn with
  | nil => exact .nil
  | append_singleton ps p ih =>
    rw [List.map_append, List.pairwise_append] at ascending
    obtain ⟨ascending, -, below⟩ := ascending
    have distinct : (ps.map Prod.fst).Nodup := ascending.imp Std.ne_of_lt
    rw [ofList_concat]
    apply insert_ahead (ih ascending)
    intro l member
    rw [((ofList_perm distinct).map Prod.fst).mem_iff] at member
    exact below l member p.1 List.mem_cons_self

/-- Keys in the order of fields ascend exactly if no key that comes first is above another one. -/
theorem ascending_iff {ks : List Text} (ordered : ks.Pairwise Ahead) :
    ks.Pairwise (· < ·) ↔ ∀ k ∈ ks, ∀ l ∈ ks, ComesFirst k l → k < l := by
  constructor
  · intro ascending
    -- Two keys stand either way round: in one the code units decide, in the other none comes first.
    have forward : ks.Pairwise fun k l => ComesFirst k l → k < l := by
      refine ascending.imp ?_
      intro k l lt _
      exact lt
    have backward : ks.Pairwise (flip fun k l => ComesFirst k l → k < l) := by
      refine ordered.imp ?_
      intro k l ahead first
      exact absurd first ahead.not_comesFirst
    have self : ∀ k ∈ ks, ComesFirst k k → k < k := fun k _ first => absurd first first.asymm
    intro k hk l hl
    exact forward.forall_of_forall_of_flip self backward hk hl
  · intro first
    refine ordered.imp_of_mem fun {k l} hk hl ahead => ?_
    exact ahead.elim (first k hk l hl) And.right

end Order

end RequestCompiler.Fields
