import Mathlib.Data.List.Nodup
import Mathlib.Data.List.Perm.Basic
import RequestCompiler.Proofs.Binary64.Decimal
import RequestCompiler.Proofs.Json.Framing
import RequestCompiler.Proofs.Json.Tree

/-!
# What a canonical text tells

A canonical text is closed and holds no lone surrogate, whatever value it is of (`closed_canonical`,
`wellFormed_canonical`). So the canonical text of a list tells those of its items
(`canonical_arr_inj`), and the one of an object tells those of its values
(`canonical_value_inj`).
-/

namespace RequestCompiler.Json

/-- A text that is written without quotes: of ASCII units that mean nothing to a scan. -/
def Word (t : Text) : Prop := ∀ u ∈ t, u.toNat < 0x80 ∧ IsInner u

instance (t : Text) : Decidable (Word t) :=
  List.decidableBAll (fun u : UInt16 => u.toNat < 0x80 ∧ IsInner u) t

section Word

variable {s t : Text}

theorem Word.append (first : Word s) (second : Word t) : Word (s ++ t) :=
  List.forall_mem_append.2 ⟨first, second⟩

theorem Word.take (word : Word t) (n : Nat) : Word (t.take n) :=
  fun u member => word u (List.mem_of_mem_take member)

theorem Word.drop (word : Word t) (n : Nat) : Word (t.drop n) :=
  fun u member => word u (List.mem_of_mem_drop member)

theorem Word.ite {p : Prop} [Decidable p] (first : Word s) (second : Word t) :
    Word (if p then s else t) := by
  split
  · exact first
  · exact second

theorem word_of_isDigit (digits : ∀ u ∈ t, Numeral.isDigit u = true) : Word t := by
  intro u member
  have range := Numeral.isDigit_iff.1 (digits u member)
  have apart : ∀ v, v ≠ unit '-' → Numeral.isDigit v = false → u ≠ v := fun _ =>
    Numeral.ne_of_lead (.inr (digits u member))
  exact ⟨by omega, apart _ (by decide) (by decide), not_or.2 ⟨apart _ (by decide) (by decide),
    apart _ (by decide) (by decide)⟩, not_or.2 ⟨apart _ (by decide) (by decide),
    apart _ (by decide) (by decide)⟩, apart _ (by decide) (by decide)⟩

theorem word_zeros (n : Nat) : Word (Text.repeated n '0') := word_of_isDigit (Numeral.isDigit_zeros n)

theorem word_ofNat (n : Nat) : Word (Text.ofNat n) := word_of_isDigit (Numeral.isDigit_ofNat n)

theorem word_scientificLayout (word : Word t) (point : Int) :
    Word (Binary64.scientificLayout t point) := by
  unfold Binary64.scientificLayout
  refine .append (.append (.append ?_ (by decide)) ?_) (word_ofNat _)
  · exact .ite word (.append (.append (word.take 1) (by decide)) (word.drop 1))
  · exact .ite (by decide) (by decide)

theorem word_layout (word : Word t) (point : Int) : Word (Binary64.layout t point) := by
  unfold Binary64.layout
  refine .ite (word.append (word_zeros _)) (.ite ?_ (.ite ?_ (word_scientificLayout word point)))
  · exact .append (.append (word.take _) (by decide)) (word.drop _)
  · exact .append (.append (by decide) (word_zeros _)) word

theorem word_numberText (n : Binary64) : Word (numberText n) := by
  unfold numberText Binary64.text
  refine .ite (.ite (by decide) (.ite (by decide) ?_)) (by decide)
  refine .ite (.append (.ite (by decide) (by decide)) (by decide)) ?_
  exact .append (.ite (by decide) (by decide)) (word_layout (word_of_isDigit (Binary64.isDigit_digitsAndPoint _)) _)

theorem word_boolText (b : Bool) : Word (boolText b) := by
  cases b <;> decide

end Word

section Forms

theorem canonicalItems_eq (items : List Json) : canonicalItems items = items.map canonical := by
  induction items with
  | nil => rfl
  | cons j items ih => rw [canonicalItems, ih, List.map_cons]

/-- The text of a field, from its key and the text of its value. -/
def fieldText (f : Text × Text) : Text := f.1.quote ++ ":" ++ f.2

theorem canonicalFields_eq (fields : List (Text × Json)) :
    canonicalFields fields = fields.map fun f => (f.1, fieldText (f.1, canonical f.2)) := by
  induction fields with
  | nil => rfl
  | cons f fields ih => rw [canonicalFields, ih, List.map_cons, fieldText]

/-- The texts of an object's fields, in the order in which they are written. -/
def fieldTexts (fields : List (Text × Json)) : List Text :=
  (sortByKey (canonicalFields fields)).map (·.2)

theorem fieldTexts_perm (fields : List (Text × Json)) :
    (fieldTexts fields).Perm ((fields.map fun f => (f.1, canonical f.2)).map fieldText) := by
  have texts : ((fields.map fun f => (f.1, canonical f.2)).map fieldText) =
      (canonicalFields fields).map (·.2) := by
    rw [canonicalFields_eq, List.map_map, List.map_map]
    rfl
  rw [texts]
  exact (List.mergeSort_perm _ _).map _

/-- What holds of every kind of canonical text holds of them all. -/
theorem canonical_induction {motive : Text → Prop} (word : ∀ t, Word t → motive t)
    (quote : ∀ t : Text, motive t.quote)
    (list : ∀ ts, (∀ t ∈ ts, motive t) → motive ("[" ++ Text.join "," ts ++ "]"))
    (field : ∀ (key t : Text), motive t → motive (fieldText (key, t)))
    (object : ∀ ts, (∀ t ∈ ts, motive t) → motive ("\x7b" ++ Text.join "," ts ++ "\x7d"))
    (j : Json) : motive j.canonical := by
  induction j using Json.induction with
  | null => exact word _ (by decide)
  | bool b => exact word _ (word_boolText b)
  | num n => exact word _ (word_numberText n)
  | str t => exact quote t
  | arr items each =>
    rw [canonical, canonicalItems_eq]
    exact list _ (List.forall_mem_map.2 each)
  | obj fields each =>
    rw [canonical]
    refine object (fieldTexts fields) fun t member => ?_
    obtain ⟨_, pair, rfl⟩ := List.mem_map.1 ((fieldTexts_perm fields).mem_iff.1 member)
    obtain ⟨f, field', rfl⟩ := List.mem_map.1 pair
    exact field f.1 _ (each f field')

end Forms

theorem Word.closed {t : Text} (word : Word t) : Closed t :=
  closed_of_inner fun u member => (word u member).2

theorem Word.wellFormed {t : Text} (word : Word t) : t.wellFormed = true :=
  Text.wellFormed_of_lt fun u member => (word u member).1.trans (by decide)

theorem closed_fieldText {t : Text} (key : Text) (closed : Closed t) :
    Closed (fieldText (key, t)) := by
  have colon : Word ":" := by decide
  exact ((closed_quote key).append colon.closed).append closed

/-- Canonical texts are closed. -/
theorem closed_canonical (j : Json) : Closed j.canonical :=
  canonical_induction (fun _ word => word.closed) closed_quote
    (fun _ closed => closed_bracketed closed (fun _ => rfl) fun _ => rfl)
    (fun key _ closed => closed_fieldText key closed)
    (fun _ closed => closed_bracketed closed (fun _ => rfl) fun _ => rfl) j

theorem wellFormed_bracketed {opening closing : Text} {ts : List Text}
    (first : opening.wellFormed = true) (last : closing.wellFormed = true)
    (each : ∀ t ∈ ts, t.wellFormed = true) :
    (opening ++ Text.join "," ts ++ closing).wellFormed = true := by
  have comma : Text.wellFormed "," = true := rfl
  have inner := Text.wellFormed_join comma each
  rw [List.append_assoc, Text.wellFormed_append first, Text.wellFormed_append inner, last]

theorem wellFormed_fieldText {t : Text} (key : Text) (whole : t.wellFormed = true) :
    (fieldText (key, t)).wellFormed = true := by
  have colon : Text.wellFormed ":" = true := rfl
  rw [fieldText, List.append_assoc, Text.wellFormed_append (Text.wellFormed_quote key),
    Text.wellFormed_append colon, whole]

/-- Canonical texts hold no lone surrogate. -/
theorem wellFormed_canonical (j : Json) : j.canonical.wellFormed = true :=
  canonical_induction (motive := fun t => t.wellFormed = true) (fun _ word => word.wellFormed)
    Text.wellFormed_quote (fun _ each => wellFormed_bracketed rfl rfl each)
    (fun key _ whole => wellFormed_fieldText key whole)
    (fun _ each => wellFormed_bracketed rfl rfl each) j

section Injective

theorem fieldText_injective : Function.Injective fieldText := by
  rintro ⟨key, t⟩ ⟨key', t'⟩ same
  rw [fieldText, fieldText, List.append_assoc, List.append_assoc, Text.quote_append_inj] at same
  exact Prod.ext same.1 (List.append_cancel_left same.2)

theorem canonical_str_inj {s t : Text} : canonical (.str s) = canonical (.str t) ↔ s = t := by
  have read := @Text.quote_append_inj s t [] []
  simpa [canonical] using read

/-- The canonical text of a list tells those of its items, if none of them is empty. -/
theorem canonical_arr_inj {xs ys : List Json} (full : ∀ x ∈ xs, x.canonical ≠ [])
    (full' : ∀ y ∈ ys, y.canonical ≠ []) (same : canonical (.arr xs) = canonical (.arr ys)) :
    xs.map canonical = ys.map canonical := by
  rw [canonical, canonical, canonicalItems_eq, canonicalItems_eq] at same
  have inner := List.append_cancel_left (List.append_cancel_right same)
  refine join_inj ?_ ?_ inner
  · exact List.forall_mem_map.2 fun x member => ⟨closed_canonical x, full x member⟩
  · exact List.forall_mem_map.2 fun y member => ⟨closed_canonical y, full' y member⟩

theorem canonical_texts_inj {ss ts : List Text} :
    canonical (.texts ss) = canonical (.texts ts) ↔ ss = ts := by
  refine ⟨fun same => ?_, fun same => same ▸ rfl⟩
  have full : ∀ us : List Text, ∀ j ∈ us.map Json.str, j.canonical ≠ [] := fun us =>
    List.forall_mem_map.2 fun u _ => List.cons_ne_nil _ _
  have items := canonical_arr_inj (full ss) (full ts) same
  rw [List.map_map, List.map_map] at items
  exact List.map_injective_iff.2 (fun _ _ => canonical_str_inj.1) items

/-- The canonical text of an object tells its keys with the canonical texts of their values. -/
theorem canonical_obj_inj {fs gs : List (Text × Json)}
    (same : canonical (.obj fs) = canonical (.obj gs)) :
    (fs.map fun f => (f.1, canonical f.2)).Perm (gs.map fun g => (g.1, canonical g.2)) := by
  have full : ∀ (hs : List (Text × Json)), ∀ t ∈ fieldTexts hs, Closed t ∧ t ≠ [] := by
    intro hs t member
    obtain ⟨_, pair, rfl⟩ := List.mem_map.1 ((fieldTexts_perm hs).mem_iff.1 member)
    obtain ⟨h, -, rfl⟩ := List.mem_map.1 pair
    exact ⟨closed_fieldText h.1 (closed_canonical h.2), List.cons_ne_nil _ _⟩
  rw [canonical, canonical] at same
  have texts : fieldTexts fs = fieldTexts gs :=
    join_inj (full fs) (full gs) (List.append_cancel_left (List.append_cancel_right same))
  have perm := ((fieldTexts_perm fs).symm.trans (texts ▸ .refl _)).trans (fieldTexts_perm gs)
  exact (List.map_perm_map_iff fieldText_injective).1 perm

theorem canonical_object_ne_nil {fs : List (String × Json)} : canonical (.object fs) ≠ [] := by
  have brace : Text.ofString "\x7b" ≠ [] := by decide
  simp [Json.object, canonical, brace]

/-- The canonical text of an object with distinct keys tells the one of each value. -/
theorem canonical_value_inj {fs gs : List (Text × Json)} {key : Text} {i j : Json}
    (distinct : (fs.map Prod.fst).Nodup) (same : canonical (.obj fs) = canonical (.obj gs))
    (member : (key, i) ∈ fs) (member' : (key, j) ∈ gs) : i.canonical = j.canonical := by
  obtain ⟨f, found, own⟩ := List.mem_map.1 ((canonical_obj_inj same).mem_iff.2 (List.mem_map_of_mem member'))
  obtain ⟨ownKey, ownText⟩ := Prod.mk.inj own
  have only := List.inj_on_of_nodup_map distinct member found ownKey.symm
  rw [← ownText, ← only]

theorem canonical_object_inj {fs gs : List (String × Json)} {i j : Json}
    (distinct : (fs.map fun f => Text.ofString f.1).Nodup)
    (same : canonical (.object fs) = canonical (.object gs)) (key : String) (member : (key, i) ∈ fs)
    (member' : (key, j) ∈ gs) : i.canonical = j.canonical := by
  have keys : ((fs.map fun f => (Text.ofString f.1, f.2)).map Prod.fst).Nodup := by rwa [List.map_map]
  exact canonical_value_inj keys same (List.mem_map_of_mem member) (List.mem_map_of_mem member')

end Injective

end RequestCompiler.Json
