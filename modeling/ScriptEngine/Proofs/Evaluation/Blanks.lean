import ScriptEngine.Proofs.Evaluation.ErrorLocation
import ScriptEngine.Proofs.Evaluation.Sequence
import ScriptEngine.Proofs.Tree.Stalling

/-!
# Blanks between tokens

Blanks that are put into a script at a token boundary make no difference: the tokens are the same
(`Lexer.Spread.next`), and up to positions in the text so are the statements and the final error
(`Script.respaced_of_spread`), and what an evaluation comes to (`evaluate_respaced`).

The one exception is a script in which reading comes to nothing in the end.  It may return more empty
statements in front of its error if blanks are put in.  Carrying them out notes a line, and so does the
error behind them.
-/

namespace ScriptEngine

variable {ν σ : Type}

/-! ## Scripts -/

namespace Script

/-- The second script is the first up to positions in the text.  If reading the first comes to nothing
in the end, the second may have more empty statements there. -/
structure Respaced (s s' : Script) : Prop where
  trees : ∃ k span, s'.trees.map (Stmt.mapSpan Span.onLine) =
      (s.trees ++ List.replicate k (Stmt.empty span)).map (Stmt.mapSpan Span.onLine) ∧
    (k ≠ 0 → ∃ e ∈ s.error, e.fault = .grammar .stalled)
  error : s'.error.map (ScriptError.mapSpan Span.onLine) =
    s.error.map (ScriptError.mapSpan Span.onLine)

variable {x : Spacing} {text : List Char} {r : Nat} {p q q₁ q' : Parser Lexer} {s s' : Script}

/-- Calls that return statements and then fail are the script. -/
lemma ReadFrom.of_calls {ss : List Stmt} {e : ScriptError} (reads : ReadFrom q s)
    (calls : Parse.Calls (Parse.topLevel nestingLimit) ss q q₁)
    (failed : Parse.topLevel nestingLimit q₁ = .error e q') : s.trees = ss ∧ s.error = some e := by
  induction calls generalizing s with
  | none q =>
    obtain rfl := reads.of_error failed
    exact ⟨rfl, rfl⟩
  | further first _ ih =>
    obtain ⟨rest, onward, rfl⟩ := reads.of_some first
    obtain ⟨trees, error⟩ := ih onward failed
    exact ⟨congrArg (_ :: ·) trees, error⟩

/-- What a parser reads of a text, and what one reads of the text with blanks put in. -/
lemma ReadFrom.respaced (reads : ReadFrom p s) (between : p.Between text r)
    (aligned : (Pairing.spread x).aligned p q) (reads' : ReadFrom q s') : s.Respaced s' := by
  have lawful := Pairing.spread_lawful x
  have ends {p q : Parser Lexer} (aligned : (Pairing.spread x).aligned p q) :=
    Pairing.topLevel_pairs_of_strict lawful trivial nestingLimit aligned
  -- The induction is on what the first parser reads; the second one follows it, statement by
  -- statement.
  induction reads generalizing q s' with
  | done run =>
    have done := ends aligned
    rw [run] at done
    obtain ⟨none_left, q₁, run', same, -⟩ := done
    cases none_left with
    | some s => simp [Pairing.SameBranch, Stmt.mapBranchSpan] at same
    | none =>
      obtain rfl := reads'.of_none run'
      exact ⟨⟨0, default, by simp [trees], by simp⟩, rfl⟩
  | @failed p p' e run =>
    -- A parser that makes no headway may do so later in the text with blanks, after more empty
    -- statements; any other error is found by both at the same place.
    by_cases stalled : e.fault = .grammar .stalled
    · obtain ⟨k, span, q₁, e', q', calls, failed, fault, line⟩ :=
        Parse.topLevel_stalls between aligned run stalled
      obtain ⟨trees, error⟩ := reads'.of_calls calls failed
      refine ⟨⟨k, span, ?_, fun _ => ⟨e, rfl, stalled⟩⟩, ?_⟩
      · rw [trees]
        rfl
      · rw [error]
        exact congrArg some (ScriptError.ext fault.symm line.symm)
    · have failed := ends aligned
      rw [run] at failed
      obtain ⟨e', q', run', ⟨fault, line⟩, -⟩ := failed ⟨trivial, fun h => absurd h stalled⟩
      obtain rfl := reads'.of_error run'
      exact ⟨⟨0, default, by simp [trees], by simp⟩,
        congrArg some (ScriptError.ext fault.symm line.symm)⟩
  | @statement p p' t rest run onward ih =>
    have read := ends aligned
    rw [run] at read
    obtain ⟨found, q₁, run', same, aligned₁⟩ := read
    cases found with
    | none => simp [Pairing.SameBranch, Stmt.mapBranchSpan] at same
    | some t' =>
      obtain ⟨rest', onward', rfl⟩ := reads'.of_some run'
      have one : t.mapSpan Span.onLine = t'.mapSpan Span.onLine := Option.some.inj same
      obtain ⟨⟨k, span, more, only⟩, error⟩ :=
        ih (Parse.topLevel_between between run).1 aligned₁ onward'
      refine ⟨⟨k, span, ?_, only⟩, error⟩
      exact congrArg₂ List.cons one.symm more

/-- A script, and the script with the blanks. -/
lemma respaced_of_spread {script script' : String}
    (spread : Lexer.Spread x (Lexer.ofScript script) (Lexer.ofScript script')) :
    (ofText script).Respaced (ofText script') :=
  (ofText_readFrom script).respaced (Parser.between_ofScript script) ⟨spread, rfl⟩
    (ofText_readFrom script')

end Script

/-! ## Runs -/

/-- Two outcomes that differ at most in the positions of an error. -/
inductive Run.SameOutcome {α : Type} : Option (Except ScriptError α × Machine ν σ) →
    Option (Except ScriptError α × Machine ν σ) → Prop
  | cutShort : SameOutcome none none
  | ok (a : α) (m : Machine ν σ) : SameOutcome (some (.ok a, m)) (some (.ok a, m))
  | error {e e' : ScriptError} (m : Machine ν σ)
    (same : e.mapSpan Span.onLine = e'.mapSpan Span.onLine) :
    SameOutcome (some (.error e, m)) (some (.error e', m))

lemma Run.SameOutcome.of_map {α : Type} {r r' : Option (Except ScriptError α × Machine ν σ)}
    (same : (r.map fun (outcome, m) => (outcome.mapError (ScriptError.mapSpan Span.onLine), m)) =
      r'.map fun (outcome, m) => (outcome.mapError (ScriptError.mapSpan Span.onLine), m)) :
    SameOutcome r r' := by
  rcases r with _ | ⟨e | a, m⟩ <;> rcases r' with _ | ⟨e' | a', m'⟩ <;>
    simp only [Option.map_none, Option.map_some, Except.mapError, reduceCtorEq, Option.some.injEq,
      Prod.mk.injEq, Except.error.injEq, Except.ok.injEq, false_and] at same
  · exact .cutShort
  · obtain ⟨same, rfl⟩ := same
    exact .error _ same
  · obtain ⟨rfl, rfl⟩ := same
    exact .ok _ _

/-- A failure notes its own line, whatever line has been noted before. -/
lemma Machine.noteFailure_endInput_markLine (script : String) (e : ScriptError) (line : Nat)
    (m : Machine ν σ) :
    (m.markLine line).endInput.noteFailure script e = m.endInput.noteFailure script e := by
  obtain ⟨⟨_, _, _, _, _, _, _, inputs, _⟩, _⟩ := m
  cases inputs <;> rfl

namespace Plain

/-- Statements that are the same up to positions do the same. -/
lemma performAll_onLine (host : Host ν σ) (fuel : Nat) {xs ys : List Stmt}
    (same : xs.map (Stmt.mapSpan Span.onLine) = ys.map (Stmt.mapSpan Span.onLine))
    (m : Machine ν σ) : Run.SameOutcome (performAll (.ofHost host fuel) xs m)
      (performAll (.ofHost host fuel) ys m) := by
  have respanned := performAll_respanned host fuel (f := Span.onLine) fun _ => rfl
  exact .of_map <| (respanned xs m).symm.trans <|
    (congrArg (performAll _ · m) same).trans (respanned ys m)

/-- Empty statements do nothing but note a line. -/
lemma performAll_replicate_empty (i : Interpreter ν σ) (k : Nat) (span : Span)
    (m : Machine ν σ) : ∃ m', performAll i (List.replicate k (.empty span)) m = some (.ok .normal, m') ∧
      (k = 0 → m' = m) ∧
      ∀ script e, m'.endInput.noteFailure script e = m.endInput.noteFailure script e := by
  induction k generalizing m with
  | zero => exact ⟨m, rfl, fun _ => rfl, fun _ _ => rfl⟩
  | succ k ih =>
    obtain ⟨m', performed, -, noted⟩ := ih (m.markLine span.line)
    refine ⟨m', ?_, by simp, fun script e => ?_⟩
    · rw [List.replicate_succ, performAll, perform]
      exact performed
    · rw [noted, Machine.noteFailure_endInput_markLine]

end Plain

/-! ## Evaluations -/

/-- How the evaluations of two scripts end: both are cut short, or they have the same value and leave the
same machine, or they fail with the same error up to its positions, and leave the same machine but that the
diagnostic of each is about its own script. -/
inductive SameEnd (script script' : String) : Option (Except ScriptError String × Machine ν σ) →
    Option (Except ScriptError String × Machine ν σ) → Prop
  | cutShort : SameEnd script script' none none
  | value (v : String) (m : Machine ν σ) :
    SameEnd script script' (some (.ok v, m)) (some (.ok v, m))
  | error {e e' : ScriptError} (m : Machine ν σ) (fault : e'.fault = e.fault) (line : e'.line = e.line) :
    SameEnd script script' (some (.error e, m.noteFailure script e))
      (some (.error e', m.noteFailure script' e'))

lemma ScriptError.mapSpan_onLine_eq_iff {e e' : ScriptError} :
    e.mapSpan Span.onLine = e'.mapSpan Span.onLine ↔ e.fault = e'.fault ∧ e.line = e'.line := by
  simp [mapSpan, line, Span.onLine]

/-- Scripts that are the same up to positions are evaluated alike, also if one of them has more empty
statements in front of its error. -/
lemma evaluate_respaced {script script' : String}
    (respaced : (Script.ofText script).Respaced (Script.ofText script')) (host : Host ν σ)
    (fuel : Nat) (m : Machine ν σ) :
    SameEnd script script' (evaluate host fuel script m) (evaluate host fuel script' m) := by
  cases fuel with
  | zero => exact .cutShort
  | succ fuel =>
    obtain ⟨⟨k, span, more, only⟩, error⟩ := respaced
    have alike := Plain.performAll_onLine host fuel more.symm m.beginInput
    have ran (script : String) : Script.runText ⟨callNative host (evaluate host fuel), fuel⟩ script =
        Plain.performAll (.ofHost host fuel) (Script.ofText script).trees >>=
          Flow.andThen (Script.ending (Script.ofText script).error) := Script.run_eq _ _
    -- The statements that both scripts share end alike; only behind a normal end the empty
    -- statements are reached that one of them has more.
    rw [Plain.performAll_append] at alike
    simp only [evaluate, evaluateWith, ran, Bind.bind, Run.bind] at alike ⊢
    generalize Plain.performAll (.ofHost host fuel) (Script.ofText script').trees m.beginInput =
      right at alike ⊢
    generalize Plain.performAll (.ofHost host fuel) (Script.ofText script).trees m.beginInput =
      left at alike ⊢
    rcases left with _ | ⟨e | flow, m₁⟩
    · cases alike
      exact .cutShort
    · cases alike with
      | error _ same =>
        obtain ⟨fault, line⟩ := ScriptError.mapSpan_onLine_eq_iff.1 same
        exact .error _ fault.symm line.symm
    · cases flow with
      | returned =>
        cases alike
        exact .value _ _
      | normal =>
        -- Empty statements change nothing but the line, and an error that follows them notes its
        -- own.
        obtain ⟨m₂, performed, unchanged, noted⟩ :=
          Plain.performAll_replicate_empty (.ofHost host fuel) k span m₁
        simp only [Flow.andThen, performed] at alike
        cases alike
        cases failed : (Script.ofText script).error with
        | none =>
          rw [failed] at error
          have failed' : (Script.ofText script').error = none := by simpa using error
          obtain rfl := unchanged (by_contra fun some_more => by simpa [failed] using only some_more)
          rw [failed']
          exact .value _ _
        | some e =>
          rw [failed] at error
          obtain ⟨e', failed', same⟩ := Option.map_eq_some_iff.1 error
          obtain ⟨fault, line⟩ := ScriptError.mapSpan_onLine_eq_iff.1 same
          rw [failed']
          simp only [Flow.andThen, Script.ending, Run.throw, noted]
          exact .error _ fault line

/-- Blanks that are put into a script where one of its tokens begins or ends make no difference.
Whatever the contexts in which the script is read, the `k`-th read yields the same token or the same
error, with the positions behind the blanks moved.  Up to positions the statements are the same and so is
the error behind them, except that more empty statements may stand directly in front of a `Syntax error`.
And every evaluation comes to the same value, or to the same error up to its positions. -/
theorem blanks_between_tokens_irrelevant (front blanks behind : String)
    (blank : ∀ ch ∈ blanks.toList, Gap.isBlank ch)
    (boundary : TokenBoundary (front ++ behind) front.length) :
    (∀ (contexts : Nat → TokenContext) (k : Nat),
      (((Lexer.ofScript (front ++ behind)).after contexts k).next (contexts k)).1 =
        (Spacing.mk front.toList blanks.toList behind.toList blank).closeRead
          (((Lexer.ofScript (front ++ blanks ++ behind)).after contexts k).next (contexts k)).1) ∧
    (Script.ofText (front ++ behind)).Respaced (Script.ofText (front ++ blanks ++ behind)) ∧
    GrammarFault.stalled.message = "Syntax error" ∧
    ∀ (host : Host ν σ) (fuel : Nat) (m : Machine ν σ),
      SameEnd (front ++ behind) (front ++ blanks ++ behind)
        (evaluate host fuel (front ++ behind) m)
        (evaluate host fuel (front ++ blanks ++ behind) m) := by
  have spread : Lexer.Spread ⟨front.toList, blanks.toList, behind.toList, blank⟩
      (Lexer.ofScript (front ++ behind)) (Lexer.ofScript (front ++ blanks ++ behind)) :=
    Lexer.spread_ofScript _ (by simp [Spacing.tight]) (by simp [Spacing.wide]) boundary
  have respaced := Script.respaced_of_spread spread
  refine ⟨fun contexts k => ?_, respaced, rfl, fun host fuel m => evaluate_respaced respaced host fuel m⟩
  exact ((spread.after contexts k).next _).1

/-- In front of a comma that no statement takes there are twelve empty statements instead of eleven. -/
theorem blanks_between_tokens_irrelevant_comma :
    TokenBoundary "if (1)," "if (1)".length ∧
      (Script.ofText "if (1),").trees.length = 11 ∧ (Script.ofText "if (1) ,").trees.length = 12 ∧
      (Script.ofText "if (1),").Respaced (Script.ofText "if (1) ,") ∧
      SameEnd "if (1)," "if (1) ," (evaluate ConsoleNative.host 9 "if (1)," ConsoleMachine.start)
        (evaluate ConsoleNative.host 9 "if (1) ," ConsoleMachine.start) := by
  have boundary : TokenBoundary "if (1)," "if (1)".length :=
    ⟨[_, _, _], ⟨.rightParen, ")", ⟨5, 6, 1⟩⟩, _,
      (.cons (c := .statement) trivial rfl (.cons (c := .expression) trivial rfl
        (.cons (c := .expression) trivial rfl (.cons (c := .expression) trivial rfl (.nil _))))),
      .inr rfl⟩
  obtain ⟨-, respaced, -, ends⟩ :=
    blanks_between_tokens_irrelevant "if (1)" " " "," (by simp [Gap.isBlank]) boundary
  exact ⟨boundary, by decide +kernel, by decide +kernel, respaced, ends _ _ _⟩

end ScriptEngine
