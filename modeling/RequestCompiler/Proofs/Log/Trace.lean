import RequestCompiler.Proofs.Compile.Consistency
import RequestCompiler.Proofs.Log.Run

/-!
# What a log is given during a run

A compiler answers one request after the other with one log, whose clock and sink may do what they
like with a state of their own and never fail. The log is watched: `LogService.watched` lists the
times the clock gives and the entries the sink receives. A call that returns draws one time and
gives the sink one entry, which `Describes` the call; a call that fails does neither
(`compileWith_watched`). By induction on the requests the list of a whole run is `Recorded`, and
the results are those of a run without a log (`session_recorded`).
-/

namespace RequestCompiler

variable {σ : Type}

/-- The log of a clock and a sink that never fail. -/
def LogService.ofSink (clock : StateM σ Text) (sink : LogEntry → StateM σ Unit) :
    LogService (StateM σ) where
  now := clock
  record e := do
    sink e
    return .ok ()

/-- What a log is seen to do. -/
inductive LogAct
  | drawn (time : Text)
  | received (e : LogEntry)

/-- The same log, with the list of what it was seen to do. -/
def LogService.watched (clock : StateM σ Text) (sink : LogEntry → StateM σ Unit) :
    LogService (StateM (σ × List LogAct)) where
  now := fun (s, acts) =>
    let (time, s') := clock.run s
    (time, s', acts ++ [.drawn time])
  record e := fun (s, acts) => (.ok (), ((sink e).run s).2, acts ++ [.received e])

namespace Registry

/-- The results of requests that are compiled one after the other. -/
def session {m : Type → Type} [Monad m] (r : Registry) (log : Option (LogService m))
    (qs : List Request) : m (List (Except Failure Compilation)) :=
  qs.mapM (r.compileWith log)

/-- An entry says from which registry, text and time a result comes, and what the result was. -/
structure Describes (r : Registry) (q : Request) (c : Compilation) (time : Text) (e : LogEntry) :
    Prop where
  registryHash : e.registryHash = r.hash
  inputHash : e.inputHash = Sha256.hexOfText q.text
  timestamp : e.timestamp = time
  audience : e.audience = c.audience
  mode : e.mode = c.mode
  appliedMode : e.appliedMode = c.appliedMode
  returnMode : e.returnMode = c.returnMode
  state : e.state = c.state
  confidence : e.confidence = c.confidence
  bundleId : e.bundleId = c.matched.bundle.map Bundle.id
  /-- Whatever the state, the id is missing only if no bundle has points on the text. -/
  bundleId_eq_none_iff : e.bundleId = none ↔ ∀ b ∈ r.bundles, Matching.points q.text b = 0

/-- What a log does during a run: a time and then the entry for every call that returned, and
nothing for a call that failed. -/
inductive Recorded (r : Registry) : List (Request × Except Failure Compilation) → List LogAct → Prop
  | nil : Recorded r [] []
  | returned {q : Request} {c : Compilation} {time : Text} {e : LogEntry}
      {calls : List (Request × Except Failure Compilation)} {acts : List LogAct}
      (described : Describes r q c time e) (rest : Recorded r calls acts) :
      Recorded r ((q, .ok c) :: calls) (.drawn time :: .received e :: acts)
  | failed {q : Request} {e : Failure} {calls : List (Request × Except Failure Compilation)}
      {acts : List LogAct} (rest : Recorded r calls acts) : Recorded r ((q, .error e) :: calls) acts

theorem describes_ofCompilation {r : Registry} {q : Request} {c : Compilation}
    (compiled : r.compile q = .ok c) (time : Text) :
    Describes r q c time (.ofCompilation q.text c r.hash time) := by
  have matched := (compile_eq_ok_iff.1 compiled).common.1
  have none : c.matched.bundle.map Bundle.id = none ↔
      ∀ b ∈ r.bundles, Matching.points q.text b = 0 := by
    rw [Option.map_eq_none_iff, matched, Matching.run_bundle_eq_none_iff]
  exact ⟨rfl, rfl, rfl, rfl, rfl, rfl, rfl, rfl, rfl, rfl, none⟩

variable (r : Registry) (clock : StateM σ Text) (sink : LogEntry → StateM σ Unit)

/-- A call with a watched log: its result is the one without a log, the state is the one that the
log leaves, and what the log does belongs to the call. -/
theorem compileWith_watched (q : Request) (s : σ) (before : List LogAct) :
    ∃ s' acts, (r.compileWith (some (.watched clock sink)) q).run (s, before) =
        ((r.compile q).mapError .invariant, s', before ++ acts) ∧
      (r.compileWith (some (.ofSink clock sink)) q).run s =
        ((r.compile q).mapError .invariant, s') ∧
      ∀ {calls after}, Recorded r calls after →
        Recorded r ((q, (r.compile q).mapError .invariant) :: calls) (acts ++ after) := by
  cases compiled : r.compile q with
  | error e =>
    refine ⟨s, [], ?_, run_compileWith_error compiled, .failed⟩
    rw [List.append_nil]
    exact run_compileWith_error compiled
  | ok c =>
    let time := (clock.run s).1
    let e := LogEntry.ofCompilation q.text c r.hash time
    have watched := run_compileWith_ok (l := .watched clock sink) (s := (s, before)) compiled rfl rfl
    refine ⟨_, [.drawn time, .received e], watched.trans ?_, run_compileWith_ok compiled rfl rfl,
      .returned (describes_ofCompilation compiled time)⟩
    rw [← List.append_cons]
    rfl

theorem run_session_cons {τ : Type} (log : Option (LogService (StateM τ))) (q : Request)
    (qs : List Request) {t t₁ t₂ : τ} {result : Except Failure Compilation}
    {results : List (Except Failure Compilation)} (first : (r.compileWith log q).run t = (result, t₁))
    (rest : (r.session log qs).run t₁ = (results, t₂)) :
    (r.session log (q :: qs)).run t = (result :: results, t₂) := by
  rw [session, List.mapM_cons, StateT.run_bind, first]
  change ((r.session log qs >>= fun results => pure (result :: results)).run t₁ :
    List (Except Failure Compilation) × τ) = _
  rw [StateT.run_bind, rest]
  rfl

/-- The calls of a whole run after others that the log has already seen. -/
theorem session_watched (qs : List Request) (s : σ) (before : List LogAct) :
    ∃ s' acts, (r.session (some (.watched clock sink)) qs).run (s, before) =
        (qs.map fun q => (r.compile q).mapError .invariant, s', before ++ acts) ∧
      (r.session (some (.ofSink clock sink)) qs).run s =
        (qs.map fun q => (r.compile q).mapError .invariant, s') ∧
      Recorded r (qs.map fun q => (q, (r.compile q).mapError .invariant)) acts := by
  induction qs generalizing s before with
  | nil => exact ⟨s, [], by rw [List.append_nil]; rfl, rfl, .nil⟩
  | cons q qs ih =>
    obtain ⟨s₁, acts, watched, plain, recorded⟩ := compileWith_watched r clock sink q s before
    obtain ⟨s', acts', watched', plain', recorded'⟩ := ih s₁ (before ++ acts)
    refine ⟨s', acts ++ acts', ?_, run_session_cons r _ q qs plain plain', recorded recorded'⟩
    rw [← List.append_assoc]
    exact run_session_cons r _ q qs watched watched'

theorem session_none (qs : List Request) (s : σ) :
    (r.session none qs : StateM σ _).run s =
      (qs.map fun q => (r.compile q).mapError .invariant, s) := by
  induction qs with
  | nil => rfl
  | cons q qs ih => exact run_session_cons r none q qs rfl ih

/-- During a run with a clock and a sink that never fail, the sink receives one entry for every
call that returned, in the order of the calls and stamped with the time that the clock gave for
it, and none for a call that failed. The results are those of the run without a log, where a call
knows neither of the others nor of the log. -/
theorem session_recorded (qs : List Request) (s : σ) :
    ∃ results s' acts,
      (r.session (some (.ofSink clock sink)) qs).run s = (results, s') ∧
      (r.session (some (.watched clock sink)) qs).run (s, []) = (results, s', acts) ∧
      Recorded r (qs.zip results) acts ∧
      (r.session none qs : StateM σ _).run s = (results, s) ∧
      results = qs.map fun q => (r.compile q).mapError .invariant := by
  obtain ⟨s', acts, watched, plain, recorded⟩ := session_watched r clock sink qs s []
  rw [List.map_prod_left_eq_zip] at recorded
  exact ⟨_, s', acts, plain, watched, recorded, session_none r qs s, rfl⟩

end Registry

end RequestCompiler
