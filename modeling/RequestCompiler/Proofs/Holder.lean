import Mathlib.Data.List.Induction
import RequestCompiler.Holder

/-!
# A holder in use

`Action` is what can be asked of a holder and of the compilers that were taken from it, and `answer`
what is answered after other actions. Every answer follows from the history (`answers_by_history`):
the current registry is the latest that was loaded, a load that fails leaves no trace, and a compiler
answers as the registry that was the latest when it was taken.
-/

namespace RequestCompiler

/-- The last result over a list, from what comes last. -/
theorem getLastD_filterMap_concat {α β : Type} (f : α → Option β) (as : List α) (a : α) (d : β) :
    ((as ++ [a]).filterMap f).getLastD d = (f a).getD ((as.filterMap f).getLastD d) := by
  rw [List.filterMap_append, List.getLastD_eq_getLast?, List.getLastD_eq_getLast?,
    List.getLast?_append]
  cases found : f a with
  | none => simp [found]
  | some b => simp [found]

namespace Holder

variable {ε : Type}

/-- What can be asked of a holder, and of the compilers that were taken from it. -/
inductive Action (ε : Type)
  /-- A reload, with what the loader comes to. -/
  | reload (outcome : Except ε Registry)
  | current
  | take
  /-- A request to the compiler that was taken after so many others. -/
  | compile (taken : Nat) (q : Request)

/-- What is answered; a compiler that was not taken answers nothing. -/
inductive Answer (ε : Type)
  | reloaded (outcome : Except ε Registry)
  | current (r : Registry)
  | taken
  | compiled (outcome : Option (Except InvariantViolation Compilation))

/-- A holder and the compilers that were taken from it. -/
structure Use where
  holder : Holder
  compilers : List (Request → Except InvariantViolation Compilation)

/-- The answer to an action, and the use after it. -/
def Use.step (u : Use) : Action ε → Answer ε × Use
  | .reload outcome =>
    let (holder, outcome) := u.holder.reload outcome
    (.reloaded outcome, { u with holder := holder })
  | .current => (.current u.holder.current, u)
  | .take => (.taken, { u with compilers := u.compilers ++ [u.holder.compiler] })
  | .compile taken q => (.compiled (u.compilers[taken]?.map fun c => c q), u)

/-- The use after actions on a holder with a first load. -/
def use (first : Except ε Registry) (actions : List (Action ε)) : Except ε Use :=
  (start first).map fun h => actions.foldl (fun u a => (u.step a).2) ⟨h, []⟩

/-- The answer to an action after others. -/
def answer (first : Except ε Registry) (before : List (Action ε)) (a : Action ε) :
    Except ε (Answer ε) :=
  (use first before).map fun u => (u.step a).1

section History

/-- The registries that were loaded. -/
def loaded (actions : List (Action ε)) : List Registry :=
  actions.filterMap fun
    | .reload outcome => outcome.toOption
    | _ => none

/-- The latest registry that was loaded. -/
def latest (r : Registry) (actions : List (Action ε)) : Registry := (loaded actions).getLastD r

/-- The number of compilers that were taken. -/
def takes (actions : List (Action ε)) : Nat :=
  actions.countP fun
    | .take => true
    | _ => false

theorem latest_concat (r : Registry) (as : List (Action ε)) (a : Action ε) :
    latest r (as ++ [a]) =
      (match a with
        | .reload outcome => outcome.toOption
        | _ => none).getD (latest r as) :=
  getLastD_filterMap_concat _ _ _ _

theorem takes_append (as bs : List (Action ε)) : takes (as ++ bs) = takes as + takes bs :=
  List.countP_append

end History

/-- The holder and the compilers are what the history says. -/
structure Served (r : Registry) (before : List (Action ε)) (u : Use) : Prop where
  current : u.holder.current = latest r before
  count : u.compilers.length = takes before
  compilers : ∀ p s, before = p ++ .take :: s → u.compilers[takes p]? = some (latest r p).compile

variable {r : Registry} {before : List (Action ε)} {u : Use}

theorem served_nil (r : Registry) : Served r ([] : List (Action ε)) ⟨⟨r⟩, []⟩ where
  current := rfl
  count := rfl
  compilers p s split := by simp at split

/-- A compiler that was taken up to an action was taken before it or by it. -/
theorem exists_of_concat {a : Action ε} {p s : List (Action ε)}
    (split : before ++ [a] = p ++ .take :: s) :
    (∃ s', before = p ++ .take :: s') ∨ before = p ∧ a = .take := by
  cases s using List.reverseRecOn with
  | nil =>
    obtain ⟨same, last⟩ := List.append_inj' split rfl
    exact .inr ⟨same, List.singleton_inj.1 last⟩
  | append_singleton s' b =>
    rw [← List.cons_append, ← List.append_assoc] at split
    exact .inl ⟨s', (List.append_inj' split rfl).1⟩

/-- What is not a taking leaves the compilers. -/
theorem Served.of_compilers {a : Action ε} {u' : Use} (served : Served r before u)
    (other : a ≠ .take) (uncounted : takes [a] = 0) (same : u'.compilers = u.compilers)
    (current : u'.holder.current = latest r (before ++ [a])) : Served r (before ++ [a]) u' where
  current := current
  count := by rw [same, served.count, takes_append, uncounted, Nat.add_zero]
  compilers p s split := by
    rcases exists_of_concat split with ⟨s', earlier⟩ | ⟨-, taking⟩
    · rw [same]
      exact served.compilers p s' earlier
    · exact absurd taking other

/-- Every action keeps them so. -/
theorem Served.step (served : Served r before u) (a : Action ε) :
    Served r (before ++ [a]) (u.step a).2 := by
  cases a with
  | reload outcome =>
    refine served.of_compilers nofun rfl rfl ?_
    rw [latest_concat]
    cases outcome with
    | ok R => rfl
    | error e => exact served.current
  | current => exact served.of_compilers nofun rfl rfl ((latest_concat r before _).symm ▸ served.current)
  | compile taken q =>
    exact served.of_compilers nofun rfl rfl ((latest_concat r before _).symm ▸ served.current)
  | take =>
    have current : u.holder.current = latest r (before ++ [.take]) :=
      (latest_concat r before _).symm ▸ served.current
    refine ⟨current, ?_, fun p s split => ?_⟩
    · rw [takes_append, ← served.count]
      exact List.length_append
    · rcases exists_of_concat split with ⟨s', earlier⟩ | ⟨rfl, -⟩
      · have found := served.compilers p s' earlier
        obtain ⟨inside, -⟩ := List.getElem?_eq_some_iff.1 found
        exact (List.getElem?_append_left inside).trans found
      · rw [← served.current, ← served.count]
        exact List.getElem?_concat_length

theorem served_foldl (r : Registry) (before : List (Action ε)) :
    Served r before (before.foldl (fun u a => (u.step a).2) ⟨⟨r⟩, []⟩) := by
  induction before using List.reverseRecOn with
  | nil => exact served_nil r
  | append_singleton before a ih =>
    rw [List.foldl_append]
    exact ih.step a

/-- A use is what its history says, whatever the loads come to. -/
theorem exists_served (r : Registry) (before : List (Action ε)) :
    ∃ u, use (.ok r) before = .ok u ∧ Served r before u := ⟨_, rfl, served_foldl r before⟩

/-- A reload that fails is as if it had not been asked for. -/
theorem use_failed_reload (first : Except ε Registry) (e : ε) (before after : List (Action ε)) :
    use first (before ++ .reload (.error e) :: after) = use first (before ++ after) := by
  rw [use, use]
  congr 1
  funext h
  rw [List.foldl_append, List.foldl_append, List.foldl_cons]
  rfl

/-- After any actions, the current registry is the latest that was loaded; a reload answers with the
outcome of its load, and if that failed every later answer is the one without it; a compiler answers
as the registry that was the latest when it was taken. -/
theorem answers_by_history (r : Registry) (before : List (Action ε)) :
    answer (.ok r) before .current = .ok (.current (latest r before)) ∧
      (∀ outcome, answer (.ok r) before (.reload outcome) = .ok (.reloaded outcome)) ∧
      (∀ e after a, answer (.ok r) (before ++ .reload (.error e) :: after) a =
        answer (.ok r) (before ++ after) a) ∧
      ∀ p s q, before = p ++ .take :: s →
        answer (.ok r) before (.compile (takes p) q) =
          .ok (.compiled (some ((latest r p).compile q))) := by
  obtain ⟨u, used, served⟩ := exists_served r before
  refine ⟨?_, fun outcome => ?_, fun e after a => ?_, fun p s q split => ?_⟩
  · rw [answer, used, ← served.current]
    rfl
  · rw [answer, used]
    cases outcome <;> rfl
  · rw [answer, use_failed_reload, answer]
  · have found := served.compilers p s split
    rw [answer, used]
    exact congrArg (fun c => Except.ok (Answer.compiled (c.map fun c => c q))) found

end Holder

end RequestCompiler
