import RequestCompiler.Proofs.Json.Canonical

/-!
# Values that differ in the order of keys

`Reordered i j` says that `j` is `i` with the keys of some objects in another order, at any depth.
Keys are distinct, so such values have the same fields (`Reordered.field?`), and since a canonical
text is written in the order of the keys they have the same one (`Reordered.canonical_eq`).
-/

namespace RequestCompiler.Json

/-- The second value is the first one but for the order of keys. -/
inductive Reordered : Json → Json → Prop
  | refl (j : Json) : Reordered j j
  | arr {xs ys : List Json} (length : xs.length = ys.length)
      (items : ∀ (n : Nat) (x y : Json), xs[n]? = some x → ys[n]? = some y → Reordered x y) :
      Reordered (.arr xs) (.arr ys)
  | obj {fs gs : List (Text × Json)} (distinct : (fs.map Prod.fst).Nodup)
      (keys : (gs.map Prod.fst).Perm (fs.map Prod.fst))
      (values : ∀ key i j, (key, i) ∈ fs → (key, j) ∈ gs → Reordered i j) :
      Reordered (.obj fs) (.obj gs)

section Keys

variable {α β : Type} {fs : List (Text × α)} {gs : List (Text × β)} {key : Text}

theorem exists_of_mem_keys (member : key ∈ fs.map Prod.fst) : ∃ v, (key, v) ∈ fs := by
  obtain ⟨⟨_, v⟩, found, rfl⟩ := List.mem_map.1 member
  exact ⟨v, found⟩

/-- A field of one object has a partner in an object with the same keys. -/
theorem exists_partner {v : α} (keys : (gs.map Prod.fst).Perm (fs.map Prod.fst))
    (member : (key, v) ∈ fs) : ∃ w, (key, w) ∈ gs :=
  exists_of_mem_keys (keys.mem_iff.2 (List.mem_map_of_mem member))

/-- Distinct keys pair the fields of two objects up: what the partners agree in is the same for
both. -/
theorem map_perm_of_keys {γ : Type} {f : Text × α → Text × γ} {fs gs : List (Text × α)}
    (own : ∀ p, (f p).1 = p.1) (distinct : (fs.map Prod.fst).Nodup)
    (keys : (gs.map Prod.fst).Perm (fs.map Prod.fst))
    (same : ∀ k v w, (k, v) ∈ fs → (k, w) ∈ gs → f (k, v) = f (k, w)) : (fs.map f).Perm (gs.map f) := by
  have nodup : ∀ hs : List (Text × α), (hs.map Prod.fst).Nodup → (hs.map f).Nodup := by
    intro hs distinct
    refine List.Nodup.of_map Prod.fst ?_
    rw [List.map_map]
    exact (List.map_congr_left fun p _ => own p).symm ▸ distinct
  rw [List.perm_ext_iff_of_nodup (nodup fs distinct) (nodup gs (keys.nodup_iff.2 distinct))]
  intro p
  constructor
  · intro member
    obtain ⟨⟨k, v⟩, hv, rfl⟩ := List.mem_map.1 member
    obtain ⟨w, hw⟩ := exists_partner keys hv
    exact same k v w hv hw ▸ List.mem_map_of_mem hw
  · intro member
    obtain ⟨⟨k, w⟩, hw, rfl⟩ := List.mem_map.1 member
    obtain ⟨v, hv⟩ := exists_partner keys.symm hw
    exact same k v w hv hw ▸ List.mem_map_of_mem hv

theorem mem_of_get? {v : α} (found : Fields.get? fs key = some v) : (key, v) ∈ fs := by
  obtain ⟨⟨k, _⟩, first, rfl⟩ := Option.map_eq_some_iff.1 found
  obtain rfl : k = key := by simpa using List.find?_some first
  exact List.mem_of_find?_eq_some first

theorem exists_get? (member : key ∈ fs.map Prod.fst) : ∃ v, Fields.get? fs key = some v := by
  obtain ⟨v, found⟩ := exists_of_mem_keys member
  rw [Fields.get?, ← Option.isSome_iff_exists, Option.isSome_map, List.find?_isSome]
  exact ⟨(key, v), found, beq_self_eq_true _⟩

end Keys

namespace Reordered

variable {i j k : Json}

theorem trans (first : Reordered i j) (second : Reordered j k) : Reordered i k := by
  induction first generalizing k with
  | refl => exact second
  | @arr xs ys length items ih =>
    cases second with
    | refl => exact .arr length items
    | @arr _ zs length' items' =>
      refine .arr (length.trans length') fun n x z hx hz => ?_
      obtain ⟨inBounds, -⟩ := List.getElem?_eq_some_iff.1 hx
      have hy := List.getElem?_eq_getElem (length ▸ inBounds)
      exact ih n x _ hx hy (items' n _ z hy hz)
  | @obj fs gs distinct keys values ih =>
    cases second with
    | refl => exact .obj distinct keys values
    | @obj _ hs distinct' keys' values' =>
      refine .obj distinct (keys'.trans keys) fun key x z hx hz => ?_
      obtain ⟨y, hy⟩ := exists_partner keys hx
      exact ih key x y hx hy (values' key y z hy hz)

/-- An object is reordered by a permutation of its fields. -/
theorem of_perm {fs gs : List (Text × Json)} (distinct : (fs.map Prod.fst).Nodup) (perm : gs.Perm fs) :
    Reordered (.obj fs) (.obj gs) := by
  refine .obj distinct (perm.map _) fun key i j hi hj => ?_
  obtain rfl : i = j := congrArg Prod.snd (List.inj_on_of_nodup_map distinct hi (perm.mem_iff.1 hj) rfl)
  exact .refl i

theorem eq_str {t : Text} (h : Reordered (.str t) j) : j = .str t := by
  cases h
  rfl

theorem eq_null (h : Reordered i .null) : i = .null := by
  cases h
  rfl

/-- Lists of values are reordered item by item. -/
theorem exists_arr {xs : List Json} (h : Reordered (.arr xs) j) :
    ∃ ys, j = .arr ys ∧ List.Forall₂ Reordered xs ys := by
  cases h with
  | refl => exact ⟨xs, rfl, List.forall₂_same.2 fun x _ => .refl x⟩
  | @arr _ ys length items =>
    refine ⟨ys, rfl, List.forall₂_iff_get.2 ⟨length, fun n inBounds inBounds' => ?_⟩⟩
    exact items n _ _ (List.getElem?_eq_getElem inBounds) (List.getElem?_eq_getElem inBounds')

theorem eq_texts {ts : List Text} (h : Reordered (.texts ts) j) : j = .texts ts := by
  obtain ⟨ys, rfl, items⟩ := h.exists_arr
  rw [List.forall₂_map_left_iff] at items
  have same := items.imp fun t y (text : Reordered (.str t) y) => text.eq_str.symm
  rw [← List.forall₂_map_left_iff, List.forall₂_eq_eq_eq] at same
  exact congrArg Json.arr same.symm

/-- A field of a value is still there, but for the order of keys in it. -/
theorem field? {key : Text} {v : Json} (h : Reordered i j) (found : i.field? key = some v) :
    ∃ w, j.field? key = some w ∧ Reordered v w := by
  cases h with
  | refl => exact ⟨v, found, .refl v⟩
  | arr => cases found
  | @obj fs gs distinct keys values =>
    have member := mem_of_get? found
    obtain ⟨w, found'⟩ := exists_get? (keys.mem_iff.2 (List.mem_map_of_mem member))
    exact ⟨w, found', values key v w member (mem_of_get? found')⟩

end Reordered

section Canonical

theorem keys_canonicalFields (fields : List (Text × Json)) :
    (canonicalFields fields).map Prod.fst = fields.map Prod.fst := by
  rw [canonicalFields_eq, List.map_map]
  rfl

theorem sortByKey_ordered {α : Type} (ps : List (Text × α)) :
    (sortByKey ps).Pairwise fun p q => p.1 ≤ q.1 := by
  have trans : ∀ p q s : Text × α, Text.le p.1 q.1 = true → Text.le q.1 s.1 = true →
      Text.le p.1 s.1 = true := by
    intro p q s h h'
    simp only [Text.le, decide_eq_true_eq] at h h' ⊢
    exact Std.le_trans h h'
  have total : ∀ p q : Text × α, (Text.le p.1 q.1 || Text.le q.1 p.1) = true := by
    intro p q
    simpa [Text.le] using List.le_total p.1 q.1
  exact (List.pairwise_mergeSort trans total ps).imp of_decide_eq_true

/-- Under distinct keys the order of the fields does not show once they are sorted. -/
theorem sortByKey_perm {α : Type} {ps qs : List (Text × α)} (same : ps.Perm qs)
    (distinct : (ps.map Prod.fst).Nodup) : sortByKey ps = sortByKey qs := by
  have perm : (sortByKey ps).Perm (sortByKey qs) :=
    ((List.mergeSort_perm _ _).trans same).trans (List.mergeSort_perm _ _).symm
  refine List.Perm.eq_of_pairwise (fun p q hp hq h h' => ?_) (sortByKey_ordered ps)
    (sortByKey_ordered qs) perm
  exact List.inj_on_of_nodup_map distinct ((List.mergeSort_perm _ _).mem_iff.1 hp)
    (same.mem_iff.2 ((List.mergeSort_perm _ _).mem_iff.1 hq)) (Std.le_antisymm h h')

/-- Lists are mapped to the same one exactly if they are of one length and agree item by item. -/
theorem map_eq_map_iff_get? {α β : Type} {f : α → β} {xs ys : List α} : xs.map f = ys.map f ↔
    xs.length = ys.length ∧ ∀ (n : Nat) (x y : α), xs[n]? = some x → ys[n]? = some y → f x = f y := by
  constructor
  · intro same
    refine ⟨by simpa using congrArg List.length same, fun n x y hx hy => ?_⟩
    have item := congrArg (·[n]?) same
    simpa [hx, hy] using item
  · rintro ⟨length, items⟩
    refine List.ext_getElem (by simpa using length) fun n inBounds inBounds' => ?_
    rw [List.length_map] at inBounds inBounds'
    rw [List.getElem_map, List.getElem_map]
    exact items n _ _ (List.getElem?_eq_getElem inBounds) (List.getElem?_eq_getElem inBounds')

theorem canonical_arr_congr {xs ys : List Json} (texts : xs.map canonical = ys.map canonical) :
    canonical (.arr xs) = canonical (.arr ys) := by
  rw [canonical, canonical, canonicalItems_eq, canonicalItems_eq, texts]

/-- Objects with the same keys have the same canonical text if the partners do. -/
theorem canonical_obj_congr {fs gs : List (Text × Json)} (distinct : (fs.map Prod.fst).Nodup)
    (keys : (gs.map Prod.fst).Perm (fs.map Prod.fst))
    (values : ∀ key i j, (key, i) ∈ fs → (key, j) ∈ gs → i.canonical = j.canonical) :
    canonical (.obj fs) = canonical (.obj gs) := by
  have texts : (canonicalFields fs).Perm (canonicalFields gs) := by
    rw [canonicalFields_eq, canonicalFields_eq]
    refine map_perm_of_keys (fun _ => rfl) distinct keys fun key i j hi hj => ?_
    rw [values key i j hi hj]
  rw [canonical, canonical, sortByKey_perm texts (keys_canonicalFields fs ▸ distinct)]

/-- The order of keys does not show in a canonical text. -/
theorem Reordered.canonical_eq {i j : Json} (h : Reordered i j) : i.canonical = j.canonical := by
  induction h with
  | refl => rfl
  | arr length _ ih => exact canonical_arr_congr (map_eq_map_iff_get?.2 ⟨length, ih⟩)
  | obj distinct keys _ ih => exact canonical_obj_congr distinct keys ih

end Canonical

end RequestCompiler.Json
