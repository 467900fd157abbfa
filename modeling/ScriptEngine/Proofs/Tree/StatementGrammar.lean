import ScriptEngine.Proofs.Tree.ExpressionGrammar

/-!
# The grammar of statements

`Stmt.DerivedFrom s ts rest` says that the tokens `ts`, in front of tokens that begin with `rest`,
are a derivation of the statement `s`.  Every token of `ts` has its place in one of the rules, and
every span of the statement is built from theirs.  Two rules look at the token behind: a simple
statement may end in front of a closing brace or at the end of the input without a terminator of its
own, and a statement may be missing in front of a comma, an `else` or a closing brace.

An `else` belongs to the nearest `if` that can take it: a branch in front of an `else` does not
itself end in an `if` without one (`Stmt.takesElse`).

In front of a loop only a declaration or an expression can be written, so no other statement stands
there in a tree that is read from a text (`Stmt.DerivedFrom.startsAreClauses`).
-/

namespace ScriptEngine

/-- The token is a newline. -/
def Token.IsNewline (t : Token) : Prop :=
  t.kind = .newline

/-- The tokens are those of the expression, which is well formed. -/
structure Expr.DerivedFrom (e : Expr) (ts : List Token) : Prop where
  wellFormed : e.WellFormed
  words : ts.map Token.word = e.words

/-- A clause that may be missing. -/
inductive Expr.OptionDerivedFrom : Option Expr → List Token → Prop
  | none : OptionDerivedFrom none []
  | some {e : Expr} {ts : List Token} (expression : e.DerivedFrom ts) :
    OptionDerivedFrom (some e) ts

/-- `name` or `name = initializer`. -/
inductive Declarator.DerivedFrom : Declarator → List Token → Prop
  | unbound {name : Token} (named : name.kind = .name) :
    DerivedFrom ⟨name.lexeme, none, name.span.through name.span⟩ [name]
  | bound {name sign : Token} {value : Expr} {ts : List Token} (named : name.kind = .name)
    (assigns : sign.kind = .assign) (initializer : value.DerivedFrom ts) :
    DerivedFrom ⟨name.lexeme, some value, name.span.through value.span⟩ (name :: sign :: ts)

/-- Declarators separated by commas. -/
inductive Declarator.AllDerivedFrom : List Declarator → List Token → Prop
  | last {d : Declarator} {ts : List Token} (one : d.DerivedFrom ts) : AllDerivedFrom [d] ts
  | more {d : Declarator} {ds : List Declarator} {comma : Token} {ts us : List Token}
    (one : d.DerivedFrom ts) (separates : comma.kind = .comma) (others : AllDerivedFrom ds us) :
    AllDerivedFrom (d :: ds) (ts ++ comma :: us)

/-- The span of declarators behind a `var` at `start`. -/
def Declarator.spanOf (start : Span) (ds : List Declarator) : Span :=
  start.through (ds.getLast?.elim start Declarator.span)

/-- The first clause of a loop, which has no terminator. -/
inductive Stmt.StartDerivedFrom : Option Stmt → List Token → Prop
  | none : StartDerivedFrom none []
  | declare {var : Token} {ds : List Declarator} {ts : List Token}
    (word : var.kind = .keyword .varWord) (declarators : Declarator.AllDerivedFrom ds ts) :
    StartDerivedFrom (some (.declare ds (Declarator.spanOf var.span ds))) (var :: ts)
  | expression {e : Expr} {ts : List Token} (expression : e.DerivedFrom ts) :
    StartDerivedFrom (some (.expression e e.span)) ts

/-- The end of a simple statement: a semicolon or a newline, or nothing in front of a closing brace
and at the end of the input. -/
inductive TerminatorFrom : List Token → List Token → Prop
  | written {t : Token} {rest : List Token} (kind : t.kind = .semicolon ∨ t.kind = .newline) :
    TerminatorFrom [t] rest
  | implied {t : Token} {rest : List Token} (kind : t.kind = .endOfInput ∨ t.kind = .rightBrace) :
    TerminatorFrom [] (t :: rest)

lemma TerminatorFrom.append {us rest : List Token} (h : TerminatorFrom us rest)
    (more : List Token) : TerminatorFrom us (rest ++ more) := by
  cases h with
  | written kind => exact .written kind
  | implied kind => exact .implied kind

namespace Stmt

mutual

/-- The statement ends in an `if` without an `else`, which an `else` behind it would belong to. -/
def takesElse : Stmt → Bool
  | choice _ _ other _ => branchTakesElse other
  | loop _ _ _ body _ => takesElse body
  | _ => false

def branchTakesElse : Option Stmt → Bool
  | none => true
  | some other => takesElse other

end

mutual

/-- The tokens are a derivation of the statement if `rest` comes behind them. -/
inductive DerivedFrom : Stmt → List Token → List Token → Prop
  | newline {s : Stmt} {t : Token} {ts rest : List Token} (skipped : t.IsNewline)
    (later : DerivedFrom s ts rest) : DerivedFrom s (t :: ts) rest
  | semicolon {t : Token} {rest : List Token} (kind : t.kind = .semicolon) :
    DerivedFrom (.empty t.span) [t] rest
  | missing {t : Token} {rest : List Token}
    (kind : t.kind = .comma ∨ t.kind = .rightBrace ∨ t.kind = .keyword .elseWord) :
    DerivedFrom (.empty t.span) [] (t :: rest)
  | expression {e : Expr} {ts us rest : List Token} (expression : e.DerivedFrom ts)
    (ends : TerminatorFrom us rest) : DerivedFrom (.expression e e.span) (ts ++ us) rest
  | block {opening closing : Token} {statements : List Stmt} {ts blanks rest : List Token}
    (opens : opening.kind = .leftBrace)
    (inside : AllDerivedFrom statements ts (blanks ++ closing :: rest))
    (skipped : ∀ t ∈ blanks, t.IsNewline) (closes : closing.kind = .rightBrace) :
    DerivedFrom (.block statements (opening.span.through closing.span))
      (opening :: (ts ++ (blanks ++ [closing]))) rest
  | choice {word opening closing : Token} {condition : Expr} {thenBranch : Stmt}
    {cs ts rest : List Token} (decides : word.kind = .keyword .ifWord)
    (opens : opening.kind = .leftParen) (tests : condition.DerivedFrom cs)
    (closes : closing.kind = .rightParen) (branch : DerivedFrom thenBranch ts rest) :
    DerivedFrom (.choice condition thenBranch none (word.span.through thenBranch.span))
      (word :: opening :: (cs ++ closing :: ts)) rest
  | choiceElse {word opening closing elseWord : Token} {condition : Expr}
    {thenBranch elseBranch : Stmt} {cs ts blanks us rest : List Token}
    (decides : word.kind = .keyword .ifWord) (opens : opening.kind = .leftParen)
    (tests : condition.DerivedFrom cs) (closes : closing.kind = .rightParen)
    (branch : DerivedFrom thenBranch ts (blanks ++ elseWord :: (us ++ rest)))
    (nearest : thenBranch.takesElse = false) (skipped : ∀ t ∈ blanks, t.IsNewline)
    (otherwise : elseWord.kind = .keyword .elseWord) (other : DerivedFrom elseBranch us rest) :
    DerivedFrom
      (.choice condition thenBranch (some elseBranch) (word.span.through elseBranch.span))
      (word :: opening :: (cs ++ closing :: (ts ++ (blanks ++ elseWord :: us)))) rest
  | loop {word opening first second closing : Token} {start : Option Stmt}
    {condition increment : Option Expr} {body : Stmt} {ss cs is ts rest : List Token}
    (repeats : word.kind = .keyword .forWord) (opens : opening.kind = .leftParen)
    (starts : StartDerivedFrom start ss) (divides : first.kind = .semicolon)
    (tests : Expr.OptionDerivedFrom condition cs) (separates : second.kind = .semicolon)
    (steps : Expr.OptionDerivedFrom increment is) (closes : closing.kind = .rightParen)
    (inside : DerivedFrom body ts rest) :
    DerivedFrom (.loop start condition increment body (word.span.through body.span))
      (word :: opening :: (ss ++ first :: (cs ++ second :: (is ++ closing :: ts)))) rest
  | declare {word : Token} {ds : List Declarator} {ts us rest : List Token}
    (declares : word.kind = .keyword .varWord) (declarators : Declarator.AllDerivedFrom ds ts)
    (ends : TerminatorFrom us rest) :
    DerivedFrom (.declare ds (Declarator.spanOf word.span ds)) (word :: (ts ++ us)) rest
  | giveBack {word : Token} {value : Option Expr} {ts us rest : List Token}
    (returns : word.kind = .keyword .returnWord) (expression : Expr.OptionDerivedFrom value ts)
    (ends : TerminatorFrom us rest) :
    DerivedFrom
      (.giveBack value (value.elim word.span fun e => word.span.through e.span))
      (word :: (ts ++ us)) rest

/-- Statements one after the other, none of them begun at a closing brace. -/
inductive AllDerivedFrom : List Stmt → List Token → List Token → Prop
  | nil {rest : List Token} : AllDerivedFrom [] [] rest
  | cons {s : Stmt} {others : List Stmt} {t : Token}
    {blanks ts us rest following : List Token} (skipped : ∀ t ∈ blanks, t.IsNewline)
    (begins : ts ++ (us ++ rest) = t :: following)
    (proper : t.kind ≠ .rightBrace) (one : DerivedFrom s ts (us ++ rest))
    (more : AllDerivedFrom others us rest) :
    AllDerivedFrom (s :: others) (blanks ++ (ts ++ us)) rest

end

lemma DerivedFrom.newlines {s : Stmt} {blanks ts rest : List Token}
    (skipped : ∀ t ∈ blanks, t.IsNewline) (h : s.DerivedFrom ts rest) :
    s.DerivedFrom (blanks ++ ts) rest := by
  induction blanks with
  | nil => exact h
  | cons t blanks ih =>
    simp only [List.mem_cons, forall_eq_or_imp] at skipped
    exact .newline skipped.1 (ih skipped.2)

/-! ## More of the tokens behind -/

mutual

/-- What holds in front of some tokens holds in front of any that begin with them. -/
lemma DerivedFrom.append {s : Stmt} {ts rest : List Token} :
    s.DerivedFrom ts rest → (more : List Token) → s.DerivedFrom ts (rest ++ more)
  | .newline skipped later, more => .newline skipped (later.append more)
  | .semicolon kind, _ => .semicolon kind
  | .missing kind, _ => .missing kind
  | .expression derived ends, more => .expression derived (ends.append more)
  | .block opens inside skipped closes, more =>
    .block opens (by simpa using inside.append more) skipped closes
  | .choice decides opens tests closes branch, more =>
    .choice decides opens tests closes (branch.append more)
  | .choiceElse decides opens tests closes branch nearest skipped otherwise other, more =>
    .choiceElse decides opens tests closes (by simpa using branch.append more) nearest skipped
      otherwise (other.append more)
  | .loop repeats opens starts divides tests separates steps closes inside, more =>
    .loop repeats opens starts divides tests separates steps closes (inside.append more)
  | .declare declares declarators ends, more => .declare declares declarators (ends.append more)
  | .giveBack returns derived ends, more => .giveBack returns derived (ends.append more)

lemma AllDerivedFrom.append {statements : List Stmt} {ts rest : List Token} :
    AllDerivedFrom statements ts rest → (more : List Token) →
      AllDerivedFrom statements ts (rest ++ more)
  | .nil, _ => .nil
  | .cons skipped begins proper one others, more =>
    .cons skipped (by simpa using congrArg (· ++ more) begins) proper
      (by simpa using one.append more)
      (others.append more)

end

lemma DerivedFrom.of_prefix {s : Stmt} {ts rest rest' : List Token}
    (h : s.DerivedFrom ts rest) (longer : rest <+: rest') : s.DerivedFrom ts rest' := by
  obtain ⟨more, rfl⟩ := longer
  exact h.append more

/-! ## In front of loops -/

/-- A declaration or an expression, which can stand in front of a loop without being a statement of its
own there. -/
def isClause : Stmt → Bool
  | declare _ _ | expression _ _ => true
  | _ => false

mutual

/-- No loop in the statement has anything in front of it but a declaration or an expression. -/
def startsAreClauses : Stmt → Bool
  | empty _ | expression _ _ | declare _ _ | giveBack _ _ => true
  | block statements _ => allStartsAreClauses statements
  | choice _ thenBranch elseBranch _ =>
    thenBranch.startsAreClauses && branchStartsAreClauses elseBranch
  | loop start _ _ body _ => start.all isClause && body.startsAreClauses

def branchStartsAreClauses : Option Stmt → Bool
  | none => true
  | some other => other.startsAreClauses

def allStartsAreClauses : List Stmt → Bool
  | [] => true
  | s :: rest => s.startsAreClauses && allStartsAreClauses rest

end

lemma StartDerivedFrom.all_isClause {start : Option Stmt} {ts : List Token}
    (h : StartDerivedFrom start ts) : start.all isClause = true := by
  cases h <;> rfl

mutual

/-- What stands in front of a loop has been read as a declaration or as an expression. -/
lemma DerivedFrom.startsAreClauses {s : Stmt} {ts rest : List Token} :
    s.DerivedFrom ts rest → s.startsAreClauses = true
  | .newline _ later => later.startsAreClauses
  | .semicolon _ | .missing _ | .expression _ _ | .declare _ _ _ | .giveBack _ _ _ => rfl
  | .block _ inside _ _ => inside.allStartsAreClauses
  | .choice _ _ _ _ branch => by
    rw [Stmt.startsAreClauses, branch.startsAreClauses]
    rfl
  | .choiceElse _ _ _ _ branch _ _ _ other => by
    rw [Stmt.startsAreClauses, branch.startsAreClauses, branchStartsAreClauses,
      other.startsAreClauses]
    rfl
  | .loop _ _ starts _ _ _ _ _ inside => by
    rw [Stmt.startsAreClauses, starts.all_isClause, inside.startsAreClauses]
    rfl

lemma AllDerivedFrom.allStartsAreClauses {statements : List Stmt} {ts rest : List Token} :
    AllDerivedFrom statements ts rest → Stmt.allStartsAreClauses statements = true
  | .nil => rfl
  | .cons _ _ _ one others => by
    rw [Stmt.allStartsAreClauses, one.startsAreClauses, others.allStartsAreClauses]
    rfl

end

end Stmt
end ScriptEngine
