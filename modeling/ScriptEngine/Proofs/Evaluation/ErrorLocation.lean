import ScriptEngine.Console.Transcript
import ScriptEngine.Proofs.Evaluation.Related
import ScriptEngine.Proofs.Tree.StatementLayout

/-!
# Where errors are reported

An evaluation fails with an error of the script or with an error of one of its trees.  The former is
located in the text because the parser locates its errors.  The latter has the span of some part of
the tree: a tree with other spans does the same and fails with the same errors at the other spans
(`Run.Respanned`), so where all spans of a tree are located, so are the errors
(`Plain.performAll_located`).

The line that the error carries is then the line of its start, and that is the line which the
diagnostic quotes.  There is one exception: an unknown escape carries the line where the quoted text
begins, which is another one if there is a line feed in between
(`reports_line_of_start_unless_misquoted`, `misquoted_reports_line_of_opening`).
-/

namespace ScriptEngine

variable {ν σ α β : Type}

/-! ## Errors at other spans -/

namespace Run

open RunRelation

variable {f : Span → Span} {i : Interpreter ν σ}

/-- The second run does what the first does, and its errors have the spans of the first changed by
`f`. -/
def Respanned (f : Span → Span) (x y : Run ν σ α) : Prop :=
  ∀ m, y m = (x m).map fun (outcome, m') => (outcome.mapError (ScriptError.mapSpan f), m')

namespace Respanned

lemma pure (a : α) : Respanned f (pure a : Run ν σ α) (pure a) := fun _ => rfl

lemma throw (e : ScriptError) : Respanned f (throw e : Run ν σ α) (throw (e.mapSpan f)) :=
  fun _ => rfl

lemma bind {x y : Run ν σ α} {k k' : α → Run ν σ β} (first : Respanned f x y)
    (rest : ∀ a, Respanned f (k a) (k' a)) : Respanned f (x >>= k) (y >>= k') := by
  intro m
  simp only [Bind.bind, Run.bind, first m]
  rcases x m with _ | ⟨e | a, m'⟩
  · rfl
  · rfl
  · exact rest a m'

lemma composes : Composes (Respanned f : RunRelation ν σ) f :=
  ⟨pure, throw, bind⟩

lemma modify (change : Machine ν σ → Machine ν σ) :
    Respanned f (modify change) (modify change) := fun _ => rfl

lemma composesStatements (lines : ∀ span, (f span).line = span.line) :
    ComposesStatements (Respanned f : RunRelation ν σ) f :=
  { composes with
    arrive := fun span m => by simp only [Plain.arrive, lines]; rfl
    leave := fun _ => modify _
    cutShort := fun _ => rfl }

lemma resolve (name : String) (span : Span) :
    Respanned f (resolve name span : Run ν σ _) (resolve name (f span)) := by
  intro m
  unfold ScriptEngine.resolve
  cases m.scopes.lookup name <;> rfl

lemma checkUndeclared (d : Declarator) :
    Respanned f (checkUndeclared d : Run ν σ _) (checkUndeclared (d.mapSpan f)) := by
  intro m
  unfold ScriptEngine.checkUndeclared
  rw [Declarator.name_mapSpan]
  cases m.scopes.lookup d.name <;> rfl

lemma callNative (host : Host ν σ) (evaluate : String → Run ν σ String) (name : String)
    (args : List String) (span : Span) :
    Respanned f (callNative host evaluate name args span)
      (callNative host evaluate name args (f span)) := by
  intro m
  unfold ScriptEngine.callNative
  cases m.functions[name]? with
  | none => rfl
  | some native =>
    dsimp only
    rcases (host native args).run evaluate (m.noteCall ⟨name, args⟩) with _ | ⟨_ | _, m'⟩ <;> rfl

/-- What is done with a name depends on the span in its errors only. -/
lemma covers (host : Host ν σ) (fuel : Nat) (mention : Mention) :
    Covers (Respanned f) f (.ofHost host fuel) (.ofHost host fuel) mention := by
  refine composes.covers mention (fun name _ => ?_) fun name _ =>
    callNative host (evaluate host fuel) name
  exact ⟨resolve name, fun d _ => checkUndeclared d, fun v => modify _, fun tier value => modify _⟩

end Respanned
end Run

/-- Statements with other spans on the same lines do the same, and fail at the other spans. -/
lemma Plain.performAll_respanned {f : Span → Span} (host : Host ν σ) (fuel : Nat)
    (lines : ∀ span, (f span).line = span.line) (statements : List Stmt) :
    Run.Respanned f (performAll (.ofHost host fuel) statements)
      (performAll (.ofHost host fuel) (statements.map (Stmt.mapSpan f))) := by
  have composes : RunRelation.ComposesStatements (Run.Respanned f : RunRelation ν σ) f :=
    Run.Respanned.composesStatements lines
  rw [← Stmt.mapSpans_eq_map]
  exact performAll_related_of_parts composes rfl statements <|
    relatesParts_of_covers composes.toComposes fun mention _ =>
      Run.Respanned.covers host fuel mention

/-- Moves a span that is not located in the text, and leaves its line as it is. -/
def Span.displace (text : List Char) (s : Span) : Span :=
  if s.Located text then s else { s with start := s.start + 1 }

lemma Span.line_displace (text : List Char) (s : Span) : (s.displace text).line = s.line := by
  unfold displace
  split <;> rfl

lemma Span.displace_eq_self {text : List Char} {s : Span} :
    s.displace text = s ↔ s.Located text := by
  unfold displace
  split
  · next located => exact ⟨fun _ => located, fun _ => rfl⟩
  · next other =>
    refine ⟨fun same => ?_, fun located => absurd located other⟩
    have moved : s.start + 1 = s.start := congrArg start same
    omega

/-- The errors of well nested statements are located. -/
lemma Plain.performAll_located {host : Host ν σ} {fuel : Nat} {text : List Char}
    {statements : List Stmt} {m m' : Machine ν σ} {e : ScriptError}
    (nested : ∀ s ∈ statements, s.outline.WellNested text)
    (failed : performAll (.ofHost host fuel) statements m = some (.error e, m')) :
    e.span.Located text := by
  -- With every other span displaced the statements are the same, and so is the error.
  have same : statements.map (Stmt.mapSpan (Span.displace text)) = statements := by
    refine (List.map_congr_left fun s mem => ?_).trans (List.map_id statements)
    exact s.mapSpan_eq_self ((nested s mem).all_located.mono fun _ => Span.displace_eq_self.2)
  have again := performAll_respanned host fuel (Span.line_displace text) statements m
  rw [same, failed] at again
  have fixed : e.mapSpan (Span.displace text) = e := by simpa [Except.mapError] using again.symm
  exact Span.displace_eq_self.1 (congrArg ScriptError.span fixed)

/-! ## Scripts and evaluations -/

/-- The errors of carrying out a script that is read from a text are located in the text. -/
lemma Script.runText_located {host : Host ν σ} {fuel : Nat} {text : String} {m m' : Machine ν σ}
    {e : ScriptError} (failed : runText (.ofHost host fuel) text m = some (.error e, m')) :
    e.Located text.toList := by
  obtain ⟨trees, error⟩ := ofText_laidOut text
  rw [runText, run_eq] at failed
  rcases Run.bind_eq_some failed with ⟨e', performed, raised⟩ | ⟨flow, m₁, performed, ended⟩
  · obtain rfl := Except.error.inj raised
    have located := Plain.performAll_located trees performed
    exact ⟨located.start_le, .inl located.line⟩
  · cases flow with
    | returned => cases ended
    | normal =>
      cases behind : (ofText text).error with
      | none =>
        simp only [behind, Flow.andThen, ending] at ended
        cases ended
      | some e' =>
        simp only [behind, Flow.andThen, ending] at ended
        cases ended
        exact error e behind

/-- An error of evaluating the script is reported on the line of a position: it carries the number of
that line, and the diagnostic that is kept quotes the line. -/
structure ScriptError.ReportedAt (script : String) (position : Nat) (kept : Option String)
    (e : ScriptError) : Prop where
  line : e.span.line = lineAt script.toList position
  kept_eq : kept =
    some (e.message ++ "\n At line " ++ toString (lineAt script.toList position) ++
      ", line => \n\n" ++ String.ofList (Line.around script.toList position) ++ "\n")

lemma ScriptError.reportedAt_of_line {script : String} {position : Nat} {e : ScriptError}
    (line : e.span.line = lineAt script.toList position) :
    e.ReportedAt script position (some (e.diagnostic script)) := by
  refine ⟨line, ?_⟩
  rw [diagnostic, ScriptError.line, line, Line.textOf_lineAt]

/-- Every error that an evaluation yields starts in the script and is reported on the line of its
start; but an unknown escape in a quoted text is reported on the line where the quoted text begins. -/
theorem reports_line_of_start_unless_misquoted {host : Host ν σ} {fuel : Nat} {script : String}
    {m m' : Machine ν σ} {e : ScriptError}
    (failed : evaluate host fuel script m = some (.error e, m')) :
    e.span.start ≤ script.length ∧
      (e.ReportedAt script e.span.start m'.engine.diagnostic ∨
        ∃ opening, e.Misquoted script.toList opening ∧
          e.ReportedAt script opening m'.engine.diagnostic) := by
  cases fuel with
  | zero => cases failed
  | succ fuel =>
    simp only [evaluate, evaluateWith] at failed
    rcases carried : Script.runText (.ofHost host fuel) script m.beginInput with
      _ | ⟨e' | flow, m₁⟩ <;> simp only [Interpreter.ofHost] at carried <;>
      simp only [carried] at failed
    · cases failed
    · cases failed
      obtain ⟨start_le, line⟩ := Script.runText_located carried
      refine ⟨start_le, line.imp ScriptError.reportedAt_of_line ?_⟩
      rintro ⟨opening, misquoted⟩
      obtain ⟨context, misread, letter, read, fault, rfl⟩ := id misquoted
      exact ⟨opening, misquoted, ScriptError.reportedAt_of_line rfl⟩
    · cases failed

/-- Behind a quoted text of two lines, `y` is on line 3. -/
theorem reports_line_of_start_behind_text :
    ∃ m', evaluate ConsoleNative.host 9 "x = 'a\nb'\nx + y" ConsoleMachine.start =
        some (.error ⟨.runtime (.undefinedVariable "y"), ⟨14, 15, 3⟩⟩, m') ∧
      ScriptError.ReportedAt "x = 'a\nb'\nx + y" 14 m'.engine.diagnostic
        ⟨.runtime (.undefinedVariable "y"), ⟨14, 15, 3⟩⟩ := by
  have ended : (evaluate ConsoleNative.host 9 "x = 'a\nb'\nx + y" ConsoleMachine.start).map
      Prod.fst = some (.error ⟨.runtime (.undefinedVariable "y"), ⟨14, 15, 3⟩⟩) := by
    decide +kernel
  obtain ⟨⟨_, m'⟩, run, rfl⟩ := Option.map_eq_some_iff.1 ended
  refine ⟨m', run, ?_⟩
  rcases (reports_line_of_start_unless_misquoted run).2 with reported | ⟨_, misquoted, -⟩
  · exact reported
  · obtain ⟨_, misread, _, -, -, same⟩ := misquoted
    cases congrArg ScriptError.fault same

/-- The backslash is on line 2.  The error says that it is on line 1, and the diagnostic quotes line 1. -/
theorem misquoted_reports_line_of_opening :
    lineAt "'a\n\\q'".toList 3 = 2 ∧
      ∃ m', evaluate ConsoleNative.host 9 "'a\n\\q'" ConsoleMachine.start =
          some (.error ⟨.lexical (.unknownEscape 'q'), ⟨3, 5, 1⟩⟩, m') ∧
        m'.engine.diagnostic =
          some "Invalid escape sequence '\\q'\n At line 1, line => \n\n'a\n" := by
  have ended : (evaluate ConsoleNative.host 9 "'a\n\\q'" ConsoleMachine.start).map
      (fun r => (r.1, r.2.engine.diagnostic)) =
        some (.error ⟨.lexical (.unknownEscape 'q'), ⟨3, 5, 1⟩⟩,
          some "Invalid escape sequence '\\q'\n At line 1, line => \n\n'a\n") := by
    decide +kernel
  obtain ⟨⟨_, m'⟩, run, same⟩ := Option.map_eq_some_iff.1 ended
  obtain ⟨rfl, kept⟩ := Prod.mk.inj same
  exact ⟨by decide, m', run, kept⟩

end ScriptEngine
