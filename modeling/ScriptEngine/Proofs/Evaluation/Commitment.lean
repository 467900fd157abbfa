import Mathlib.Control.Monad.Basic
import Mathlib.Data.List.Basic
import ScriptEngine.Proofs.Evaluation.Sequence
import ScriptEngine.Proofs.Tree.AwaitedElse

/-!
# What has been carried out before an error

The statements of a script are carried out one by one as they are read, so those in front of an error
have been carried out when it is raised.  For a second script behind a first one this says that the
whole of the first has been carried out before an error in the second is raised
(`error_raised_after_first`).

There is one exception.  Behind an `if` without `else` the parser looks past the newlines for an
`else`, and it does so before the statement is carried out.  If the token that it finds cannot be
read, the error is raised at once, and the `if` in front of it is never carried out
(`unreadable_token_precedes_if`).
-/

namespace ScriptEngine

variable {ν σ : Type} {i : Interpreter ν σ} {m m' : Machine ν σ}

/-- A script fails in one of its statements, or behind all of them with the error that ended its
reading. -/
lemma Script.run_eq_error {script : Script} {e : ScriptError} :
    Script.run i script.error script.statements m = some (.error e, m') ↔
      runAll i true script.trees m = some (.error e, m') ∨
        runAll i true script.trees m = some (.ok .normal, m') ∧ script.error = some e := by
  rw [run_eq, runAll_eq_performAll]
  simp only [Bind.bind, Run.bind]
  rcases Plain.performAll i script.trees m with _ | ⟨e' | _ | _, m₁⟩
  · simp
  · simp
  · cases script.error with
    | none => simp [Flow.andThen, ending, Pure.pure, Run.pure]
    | some e' => simp [Flow.andThen, ending, Run.throw, and_comm]
  · simp [Flow.andThen, Pure.pure, Run.pure]

/-- Statements that are carried out to their end are carried out up to the last, and then the last. -/
lemma runAll_concat {statements : List Stmt} {last : Stmt}
    (run : runAll i true (statements ++ [last]) m = some (.ok .normal, m')) :
    ∃ before, runAll i true statements m = some (.ok .normal, before) ∧
      last.run i true before = some (.ok .normal, m') := by
  rw [runAll_eq_performAll, Plain.performAll_append, ← runAll_eq_performAll,
    ← runAll_eq_performAll] at run
  obtain ⟨flow, before, front, back⟩ := Run.bind_eq_ok.1 run
  cases flow with
  | returned =>
    obtain ⟨⟨⟩, -⟩ := Run.pure_eq_ok.1 back
  | normal =>
    refine ⟨before, front, ?_⟩
    rw [Flow.andThen, runAll] at back
    exact (congrFun (bind_flow_normal _) before).symm.trans back

/-- Two scripts in one fail where the statements of the second are carried out behind those of the
first, or with the error that ended the reading of the second. -/
lemma Script.Continues.run_eq_error {first second both : Script} {e : ScriptError}
    {after : Machine ν σ} (continues : Continues first second both)
    (run : Script.run i first.error first.statements m = some (.ok .normal, m')) :
    Script.run i both.error both.statements m = some (.error e, after) ↔
      runAll i true second.trees m' = some (.error e, after) ∨
        runAll i true second.trees m' = some (.ok .normal, after) ∧ second.error = some e := by
  rw [continues.run_of_normal run, Script.run_eq_error]

/-- All of a first script that runs to its end has been carried out before an error is raised behind
it: whatever fails, fails where the statements of the second script are carried out from there, or
is the error that ended the reading of the second script.  The second script must not begin with
`else`.

If its first token cannot be read, this holds only if the first script ends closed.  Otherwise the
error is raised in front of the last statement of the first script. -/
theorem error_raised_after_first {first second : String}
    (run : Script.runText i first m = some (.ok .normal, m'))
    (noElse : ∀ t p, Parse.skipNewlines .statement (.ofStream (Lexer.ofScript second)) = .ok t p →
      t.kind ≠ .keyword .elseWord) :
    let shift := Span.shift (first.length + 1) (first.toList.count '\n' + 1)
    let both := Script.ofText (first ++ "\n" ++ second)
    let rest := (Script.ofText second).mapSpan shift
    ((Script.ofText first).EndsClosed ∨
        (∃ t p, Parse.skipNewlines .statement (.ofStream (Lexer.ofScript second)) = .ok t p) →
      (both.trees = (Script.ofText first).trees ++ rest.trees ∧ both.error = rest.error) ∧
        ∀ e after, Script.runText i (first ++ "\n" ++ second) m = some (.error e, after) ↔
          runAll i true rest.trees m' = some (.error e, after) ∨
            runAll i true rest.trees m' = some (.ok .normal, after) ∧ rest.error = some e) ∧
    (¬ (Script.ofText first).EndsClosed → ∀ e p,
      Parse.skipNewlines .statement (.ofStream (Lexer.ofScript second)) = .error e p →
      ∃ before last, last ∈ (Script.ofText first).trees.getLast? ∧
        Script.runText i (first ++ "\n" ++ second) m = some (.error (e.mapSpan shift), before) ∧
        last.run i true before = some (.ok .normal, m')) := by
  obtain ⟨none_failed, performed⟩ := Script.run_eq_normal run
  refine ⟨fun sure => ?_, fun awaits e p unread => ?_⟩
  · have sure : (Lexer.ofScript second).Opens ∨ (Script.ofText first).EndsClosed := by
      rcases sure with closed | ⟨t, p, skip⟩
      · exact .inr closed
      · exact .inl (Lexer.opens_of_skipNewlines skip (noElse t p skip))
    have continues := Script.ofText_continues first second sure
    exact ⟨continues.whole none_failed, fun e after => continues.run_eq_error run⟩
  · obtain ⟨trees, error⟩ := Script.ofText_cut_short first second none_failed awaits unread
    obtain ⟨last, mem, -⟩ := Script.exists_last_takesElse none_failed awaits
    rw [← runAll_eq_performAll, ← List.dropLast_append_getLast? last mem] at performed
    obtain ⟨before, front, back⟩ := runAll_concat performed
    refine ⟨before, last, mem, ?_, back⟩
    exact Script.run_eq_error.2 (.inr ⟨by rw [trees]; exact front, error⟩)

theorem error_raised_after_first_if :
    ∃ m', Script.runText (.ofHost ConsoleNative.host 9) "if (1) x = 1" ConsoleMachine.start =
        some (.ok .normal, m') ∧
      m'.scopes.lookup "x" = some (.global, some "1") ∧
      Script.runText (.ofHost ConsoleNative.host 9) ("if (1) x = 1" ++ "\n" ++ "y = (")
          ConsoleMachine.start =
        some (.error ⟨.grammar (.expressionExpected .endOfInput), ⟨18, 18, 2⟩⟩, m') := by
  have chars : "if (1) x = 1".length + 1 = 13 := by decide +kernel
  have lines : "if (1) x = 1".toList.count '\n' + 1 = 1 := by decide +kernel
  have opened : ((Parse.skipNewlines .statement).value?
      (.ofStream (Lexer.ofScript "y = ("))).any (·.kind ≠ .keyword .elseWord) := by
    decide +kernel
  have read : (Script.ofText "y = (").trees = [] ∧ (Script.ofText "y = (").error =
      some ⟨.grammar (.expressionExpected .endOfInput), ⟨5, 5, 1⟩⟩ := by
    decide +kernel
  have ended : (Script.runText (.ofHost ConsoleNative.host 9) "if (1) x = 1"
      ConsoleMachine.start).map (fun r => (r.1, r.2.scopes.lookup "x")) =
        some (.ok .normal, some (.global, some "1")) := by
    decide +kernel
  obtain ⟨t, found, other⟩ := (Option.any_eq_true _ _).1 opened
  obtain ⟨p, skip⟩ := Parse.value?_eq_some.1 found
  obtain ⟨⟨_, m'⟩, run, same⟩ := Option.map_eq_some_iff.1 ended
  obtain ⟨rfl, bound⟩ := Prod.mk.inj same
  have noElse (u : Token) (p' : Parser Lexer)
      (skip' : Parse.skipNewlines .statement (.ofStream (Lexer.ofScript "y = (")) = .ok u p') :
      u.kind ≠ .keyword .elseWord := by
    rw [skip] at skip'
    cases skip'
    simpa using other
  obtain ⟨-, fails⟩ := (error_raised_after_first run noElse).1 (.inr ⟨t, p, skip⟩)
  refine ⟨m', run, bound, (fails _ _).2 (.inr ⟨?_, ?_⟩)⟩
  · rw [Script.trees_mapSpan, read.1]
    rfl
  · rw [Script.error_mapSpan, read.2, chars, lines]
    rfl

/-- The assignment is carried out where nothing follows, but not where what follows cannot be
read. -/
theorem unreadable_token_precedes_if :
    (evaluate ConsoleNative.host 9 "if (1) x = 1" ConsoleMachine.start).map
        (fun r => (r.1, r.2.scopes.lookup "x")) =
      some (.ok "1", some (.global, some "1")) ∧
    (evaluate ConsoleNative.host 9 ("if (1) x = 1" ++ "\n" ++ "@") ConsoleMachine.start).map
        (fun r => (r.1, r.2.scopes.lookup "x")) =
      some (.error ⟨.lexical (.invalidName "@"), ⟨13, 14, 2⟩⟩, none) := by
  decide +kernel

end ScriptEngine
