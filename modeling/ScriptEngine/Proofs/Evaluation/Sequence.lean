import ScriptEngine.Console.Transcript
import ScriptEngine.Proofs.Evaluation.Relocation
import ScriptEngine.Proofs.Tree.Joining

/-!
# One script after the other

Running a script, a line feed and a second script as one script is running the first and then the
second: the statements of both in one are those of the first and then those of the second at other
spans (`Script.ofText_joined`), and natives that do not ask for the line cannot tell the difference
(`Script.run_follows`).  If the first script returns, nothing of the second is run.
-/

namespace ScriptEngine

variable {ν σ : Type} {i : Interpreter ν σ} {m m' : Machine ν σ}

/-- Two lists of statements, one behind the other. -/
lemma Plain.performAll_append (i : Interpreter ν σ) (front back : List Stmt) :
    performAll i (front ++ back) = performAll i front >>= Flow.andThen (performAll i back) := by
  induction front with
  | nil => rfl
  | cons s front ih =>
    simp only [List.cons_append, performAll, ih, bind_assoc]
    refine bind_congr fun flow => ?_
    cases flow <;> rfl

namespace Script

variable {script first second both : Script}

/-- A script that runs to its end has no error, and all its statements have been carried out. -/
lemma run_eq_normal
    (run : Script.run i script.error script.statements m = some (.ok .normal, m')) :
    script.error = none ∧ Plain.performAll i script.trees m = some (.ok .normal, m') := by
  rw [run_eq] at run
  obtain ⟨flow, m₁, performed, ended⟩ := Run.bind_eq_ok.1 run
  cases flow with
  | returned =>
    obtain ⟨⟨⟩, -⟩ := Run.pure_eq_ok.1 ended
  | normal =>
    cases error : script.error with
    | some e => simp [Flow.andThen, ending, error, Run.throw] at ended
    | none =>
      rw [error] at ended
      obtain ⟨-, rfl⟩ := Run.pure_eq_ok.1 ended
      exact ⟨rfl, performed⟩

lemma run_eq_returned
    (run : Script.run i script.error script.statements m = some (.ok .returned, m')) :
    Plain.performAll i script.trees m = some (.ok .returned, m') := by
  rw [run_eq] at run
  obtain ⟨flow, m₁, performed, ended⟩ := Run.bind_eq_ok.1 run
  cases flow with
  | returned =>
    obtain ⟨-, rfl⟩ := Run.pure_eq_ok.1 ended
    exact performed
  | normal =>
    cases error : script.error with
    | some e => simp [Flow.andThen, ending, error, Run.throw] at ended
    | none =>
      rw [error] at ended
      obtain ⟨⟨⟩, -⟩ := Run.pure_eq_ok.1 ended

/-- If the first of two scripts runs to its end, the second one is run from there. -/
lemma Continues.run_of_normal (continues : Continues first second both)
    (run : Script.run i first.error first.statements m = some (.ok .normal, m')) :
    Script.run i both.error both.statements m =
      Script.run i second.error second.statements m' := by
  obtain ⟨none_failed, performed⟩ := run_eq_normal run
  obtain ⟨trees, error⟩ := continues.whole none_failed
  rw [run_eq, run_eq, trees, error, Plain.performAll_append, bind_assoc,
    Run.bind_of_ok performed]
  rfl

/-- If the first of two scripts returns, nothing of the second is run. -/
lemma Continues.run_of_returned (continues : Continues first second both)
    (run : Script.run i first.error first.statements m = some (.ok .returned, m')) :
    Script.run i both.error both.statements m = some (.ok .returned, m') := by
  obtain ⟨more, trees⟩ := continues.front
  rw [run_eq, ← trees, Plain.performAll_append, bind_assoc,
    Run.bind_of_ok (run_eq_returned run)]
  rfl

end Script

/-- Run after a script that succeeds, a second script that begins with a token other than `else`
does what it does as the rest of one script.  If the first ended by reaching its end, the runs have
the same outcome, an error of the second script having its span shifted, and leave the same machine
but for the line that the evaluation has come to.  If the first returned, nothing else is run. -/
theorem runText_joined {host : Host ν σ} (blind : host.LineBlind) (fuel : Nat)
    {first second : String} {t : Token} {rest : Parser Lexer}
    (opens : Parse.skipNewlines .statement (.ofStream (Lexer.ofScript second)) = .ok t rest)
    (other : t.kind ≠ .keyword .elseWord) {flow : Flow}
    (run : Script.runText (.ofHost host fuel) first m = some (.ok flow, m')) :
    (flow = .normal → ∃ line,
      Script.runText (.ofHost host fuel) (first ++ "\n" ++ second) m =
        (Script.runText (.ofHost host fuel) second m').map fun (outcome, after) =>
          (outcome.mapError (ScriptError.mapSpan
            (.shift (first.length + 1) (first.toList.count '\n' + 1))), after.markLine line)) ∧
    (flow = .returned →
      Script.runText (.ofHost host fuel) (first ++ "\n" ++ second) m =
        some (.ok .returned, m')) := by
  have continues := Script.ofText_joined first second (Lexer.opens_of_skipNewlines opens other)
  constructor
  · rintro rfl
    have free {f : Span → Span} : (Interpreter.ofHost host fuel).Relocatable f 0 :=
      callNative_follows blind (evaluate_follows blind fuel 0)
    obtain ⟨line, here⟩ := Machine.exists_setLine_eq_self 0 m'
    obtain ⟨line', moved⟩ := Script.run_follows (.inl rfl) free (Script.ofText second) m' line
    rw [here] at moved
    refine ⟨line', ?_⟩
    simp only [← Machine.setLine_zero]
    exact (continues.run_of_normal run).trans moved
  · rintro rfl
    exact continues.run_of_returned run

theorem runText_joined_console :
    ∃ m' line,
      Script.runText (.ofHost ConsoleNative.host 9) "n = 2\nif (n) print(n)" ConsoleMachine.start =
        some (.ok .normal, m') ∧
      Script.runText (.ofHost ConsoleNative.host 9)
          ("n = 2\nif (n) print(n)" ++ "\n" ++ "\nprint(n + 1) )") ConsoleMachine.start =
        (Script.runText (.ofHost ConsoleNative.host 9) "\nprint(n + 1) )" m').map
          fun (outcome, after) =>
            (outcome.mapError (ScriptError.mapSpan (.shift 22 2)), after.markLine line) := by
  have chars : "n = 2\nif (n) print(n)".length + 1 = 22 := by decide +kernel
  have lines : "n = 2\nif (n) print(n)".toList.count '\n' + 1 = 2 := by decide +kernel
  have opened : ((Parse.skipNewlines .statement).value?
      (.ofStream (Lexer.ofScript "\nprint(n + 1) )"))).any (·.kind ≠ .keyword .elseWord) := by
    decide +kernel
  have ended : (Script.runText (.ofHost ConsoleNative.host 9) "n = 2\nif (n) print(n)"
      ConsoleMachine.start).map Prod.fst = some (.ok .normal) := by
    decide +kernel
  obtain ⟨t, read, other⟩ := (Option.any_eq_true _ _).1 opened
  obtain ⟨p, opens⟩ := Parse.value?_eq_some.1 read
  obtain ⟨⟨_, m'⟩, run, rfl⟩ := Option.map_eq_some_iff.1 ended
  obtain ⟨line, joined⟩ := (runText_joined ConsoleNative.host_lineBlind 9 opens
    (by simpa using other) run).1 rfl
  rw [chars, lines] at joined
  exact ⟨m', line, run, joined⟩

end ScriptEngine
