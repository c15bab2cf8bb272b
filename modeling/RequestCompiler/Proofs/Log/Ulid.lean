import Mathlib.Data.List.Induction
import Mathlib.Data.Nat.Digits.Defs
import RequestCompiler.Log.Ulid

/-!
# What identifiers say, and their order

Digits of base 32 are read back as the number they were written for, as far as they have places for it
(`numeral?_encode`), and numbers that have the same places are in the order of their digits
(`encode_lt_encode`). So an identifier says its time and its random bytes, and a later time makes a greater
identifier, whatever the bytes are (`make_sortable`).
-/

namespace RequestCompiler.Ulid

/-- The number that digits of base 32 stand for, if all units are digits. -/
def numeral? (t : Text) : Option Nat :=
  (t.reverse.mapM fun u => alphabet.idxOf? u).map (Nat.ofDigits 32)

variable {s t : Text}

section Digits

variable {d d' : Nat}

theorem idxOf?_digit (small : d < 32) : alphabet.idxOf? (digit d) = some d := by
  have all : ∀ d < 32, alphabet.idxOf? (digit d) = some d := by decide
  exact all d small

theorem digit_mem_alphabet (small : d < 32) : digit d ∈ alphabet := by
  have all : ∀ d < 32, digit d ∈ alphabet := by decide
  exact all d small

/-- The alphabet ascends. -/
theorem digit_lt_digit (lt : d < d') (small : d' < 32) : digit d < digit d' := by
  have all : ∀ d' < 32, ∀ d < d', digit d < digit d' := by decide
  exact all d' small d lt

/-- One more digit is one more place. -/
theorem numeral?_concat {n : Nat} (read : numeral? s = some n) (small : d < 32) :
    numeral? (s ++ [digit d]) = some (d + 32 * n) := by
  obtain ⟨ds, digits, rfl⟩ := Option.map_eq_some_iff.1 read
  rw [numeral?, List.reverse_append, List.reverse_singleton, List.singleton_append, List.mapM_cons,
    idxOf?_digit small, digits]
  exact congrArg some Nat.ofDigits_cons

end Digits

section Numbers

variable (n : Nat) (v : Int)

/-- The value of the last place is below 32. -/
theorem lastPlace_lt : (v % 32).toNat < 32 := by omega

theorem length_encode : (encode n v).length = n := by
  induction n generalizing v with
  | zero => rfl
  | succ n ih => rw [encode, List.length_append, ih, List.length_singleton]

theorem mem_alphabet_of_encode {u : UInt16} (member : u ∈ encode n v) : u ∈ alphabet := by
  induction n generalizing v with
  | zero => exact absurd member List.not_mem_nil
  | succ n ih =>
    rw [encode, List.mem_append, List.mem_singleton] at member
    rcases member with before | rfl
    · exact ih _ before
    · exact digit_mem_alphabet (lastPlace_lt v)

/-- The places of a number: the last one, and those of what is left without it. -/
theorem emod_places (m : Int) (positive : 0 < m) :
    v % (32 * m) = v % 32 + 32 * (v / 32 % m) := by
  have whole := Int.mul_ediv_add_emod (v / 32) m
  have least := Int.emod_nonneg (v / 32) positive.ne'
  have greatest := Int.emod_lt_of_pos (v / 32) positive
  refine ((Int.ediv_emod_unique (q := v / 32 / m) (by omega)).2 ⟨?_, by omega, by omega⟩).2
  rw [Int.mul_assoc]
  omega

/-- Digits are read as the number they were written for, without the places that it has beyond them. -/
theorem numeral?_encode : numeral? (encode n v) = some (v % 32 ^ n).toNat := by
  induction n generalizing v with
  | zero => simp [encode, numeral?]
  | succ n ih =>
    have positive : (0 : Int) < 32 ^ n := by positivity
    have places := emod_places v (32 ^ n) positive
    have least := Int.emod_nonneg (v / 32) positive.ne'
    rw [encode, numeral?_concat (ih _) (lastPlace_lt v), pow_succ', places]
    congr 1
    omega

end Numbers

section Order

/-- Texts of one length that are in order stay so with anything behind them. -/
theorem append_lt_append (length : s.length = t.length) (lt : s < t) (x y : Text) : s ++ x < t ++ y := by
  induction s generalizing t with
  | nil =>
    obtain rfl := List.length_eq_zero_iff.1 length.symm
    exact absurd lt (List.not_lt_nil _)
  | cons u s ih =>
    cases t with
    | nil => exact absurd lt (List.not_lt_nil _)
    | cons v t =>
      rw [List.cons_lt_cons_iff] at lt
      rw [List.cons_append, List.cons_append, List.cons_lt_cons_iff]
      exact lt.imp_right fun ⟨same, rest⟩ => ⟨same, ih (Nat.succ.inj length) rest⟩

/-- Numbers that have places for all they are made of are in the order of their digits. -/
theorem encode_lt_encode {n : Nat} {a b : Int} (least : 0 ≤ a) (lt : a < b) (fits : b < 32 ^ n) :
    encode n a < encode n b := by
  induction n generalizing a b with
  | zero =>
    rw [pow_zero] at fits
    omega
  | succ n ih =>
    rw [pow_succ] at fits
    rw [encode, encode]
    have last := lastPlace_lt b
    have above : b / 32 < 32 ^ n := by omega
    rcases Int.lt_or_eq_of_le (Int.ediv_le_ediv (by decide) lt.le : a / 32 ≤ b / 32) with before | same
    · have length : (encode n (a / 32)).length = (encode n (b / 32)).length := by
        rw [length_encode, length_encode]
      exact append_lt_append length (ih (by omega) before above) _ _
    · have places : (a % 32).toNat < (b % 32).toNat := by omega
      rw [same]
      exact List.append_left_lt (List.cons_lt_cons_iff.2 (.inl (digit_lt_digit places last)))

end Order

section Identifiers

variable {now : Int} {random : List UInt8}

theorem length_make (now : Int) (random : List UInt8) : (make now random).length = 26 := by
  rw [make, List.length_append, length_encode, length_encode]
  rfl

theorem make_ne_nil (now : Int) (random : List UInt8) : make now random ≠ [] := by
  intro empty
  have length := length_make now random
  rw [empty] at length
  cases length

theorem take_make (now : Int) (random : List UInt8) :
    (make now random).take 10 = encode timeDigits now :=
  List.take_left' (length_encode timeDigits now)

theorem drop_make (now : Int) (random : List UInt8) :
    (make now random).drop 10 = encode randomDigits (ofBytes random) :=
  List.drop_left' (length_encode timeDigits now)

/-- Bytes stand for the number whose digits of base 256 they are, the first one in the greatest place. -/
theorem ofBytes_eq (bytes : List UInt8) :
    ofBytes bytes = Nat.ofDigits 256 (bytes.reverse.map UInt8.toNat) := by
  induction bytes using List.reverseRecOn with
  | nil => rfl
  | append_singleton bytes b ih =>
    rw [ofBytes, List.foldl_append, ← ofBytes, ih, List.reverse_append, List.reverse_singleton,
      List.singleton_append, List.map_cons, Nat.ofDigits_cons]
    simp only [List.foldl_cons, List.foldl_nil]
    omega

theorem ofBytes_lt (bytes : List UInt8) : ofBytes bytes < 256 ^ bytes.length := by
  have digits : ∀ d ∈ bytes.reverse.map UInt8.toNat, d < 256 := by
    simpa using fun b _ => UInt8.toNat_lt b
  have bound := Nat.ofDigits_lt_base_pow_length (by decide) digits
  rwa [← ofBytes_eq, List.length_map, List.length_reverse] at bound

/-- An identifier is 26 digits. The first ten say the time, without what is beyond fifty bits, and the others
the random bytes as one number. Of two times that have fifty bits, the later one makes the greater
identifier. -/
theorem make_sortable (ten : random.length = 10) :
    (make now random).length = 26 ∧ (∀ u ∈ make now random, u ∈ alphabet) ∧
      numeral? ((make now random).take 10) = some (now % 2 ^ 50).toNat ∧
      numeral? ((make now random).drop 10) =
        some (Nat.ofDigits 256 (random.reverse.map UInt8.toNat)) ∧
      ∀ later random', 0 ≤ now → now < later → later < 2 ^ 50 →
        make now random < make later random' := by
  have bound := ofBytes_lt random
  rw [ten] at bound
  refine ⟨length_make now random, ?_, ?_, ?_, ?_⟩
  · intro u member
    rw [make, List.mem_append] at member
    rcases member with time | bytes
    · exact mem_alphabet_of_encode _ _ time
    · exact mem_alphabet_of_encode _ _ bytes
  · rw [take_make, numeral?_encode]
    rfl
  · have own : ((ofBytes random : Int) % 32 ^ randomDigits).toNat = ofBytes random := by
      rw [Int.emod_eq_of_lt (by omega) (by rw [randomDigits]; omega), Int.toNat_natCast]
    rw [drop_make, numeral?_encode, own, ofBytes_eq]
  · intro later random' least lt fits
    have length : (encode timeDigits now).length = (encode timeDigits later).length := by
      rw [length_encode, length_encode]
    have digits : encode timeDigits now < encode timeDigits later :=
      encode_lt_encode least lt (by rw [timeDigits]; omega)
    exact append_lt_append length digits _ _

/-- A time of the year 2016 and the millisecond after it, with the greatest and with the least bytes. -/
theorem make_sortable_millisecond :
    numeral? ((make 1469918176385 (List.replicate 10 255)).take 10) = some 1469918176385 ∧
      numeral? ((make 1469918176385 (List.replicate 10 255)).drop 10) = some (2 ^ 80 - 1) ∧
      make 1469918176385 (List.replicate 10 255) < make 1469918176386 (List.replicate 10 0) := by
  obtain ⟨-, -, time, bytes, order⟩ := @make_sortable 1469918176385 (List.replicate 10 255) rfl
  exact ⟨time, bytes, order _ _ (by decide) (by decide) (by decide)⟩

end Identifiers

end RequestCompiler.Ulid
