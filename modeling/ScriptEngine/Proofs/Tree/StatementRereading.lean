import Mathlib.Control.Monad.Basic
import ScriptEngine.Proofs.Tree.Progress
import ScriptEngine.Proofs.Tree.Rereading
import ScriptEngine.Proofs.Tree.StatementWords

/-!
# Statements read by going back for a token

A parser that goes back for a token it hands back, and reads it once more in the context of the next
read, reads the same scripts with the same errors.  There is one exception: behind `for (` the parser
looks at a token as at the start of a statement, for the sake of `var`, and leaves it to the reader
of an expression.  One of the other keywords stays a keyword there, and is refused, where it would be
read again as a name (`ofText_rereads_or_refuses`).

In an accepted statement keywords stand only where the grammar has them: in front of a declaration,
an `if`, a `for`, a `return` or an `else` branch, and in front of the declaration behind `for (`.
-/

namespace ScriptEngine

open TokenStream

namespace Parse

open ScriptEngine.Parser (Standing Peeked)

variable {α : Type} {origin : Lexer} {latest : List Token} {c : TokenContext}

namespace Rereads

variable {pre : Parser Lexer → Prop} {x : Parse Lexer α} {y : Parse Rewinding α}
  {post : α → Parser Lexer → Prop}

/-- What the step that was taken tells may be used behind it. -/
lemma told {p : Parser Lexer} (rereads : Rereads origin (· = p) x y post) :
    Rereads origin (· = p) x y fun a p' => post a p' ∧ x p = .ok a p' := by
  intro p' here
  obtain rfl : p' = p := here
  have done := rereads p' rfl
  cases run : x p' with
  | ok a p₁ =>
    rw [run] at done
    exact ⟨done.1, done.2, rfl⟩
  | error e p₁ =>
    rw [run] at done
    exact done

lemma skipNewlinesWithin (c : TokenContext) (budget : Nat) :
    Rereads origin (Standing origin [] c) (skipNewlinesWithin c budget)
      (Parse.skipNewlinesWithin c budget) (Peeked origin [] c) := by
  induction budget with
  | zero => exact .failHere
  | succ budget ih =>
    refine (Rereads.next c).bind fun t => ?_
    split
    · exact .past ih
    · exact .pure fun _ peeked => peeked

lemma skipNewlines (c : TokenContext) :
    Rereads origin (Standing origin [] c) (skipNewlines c) (Parse.skipNewlines c)
      (Peeked origin [] c) :=
  .budgeted (skipNewlinesWithin c)

/-- The guard looks at the place of the next token only. -/
lemma attempt : RereadsIn c origin attempt Parse.attempt := by
  refine .get_bind fun p standing => ?_
  dsimp only
  rw [show TokenStream.position p.rewound.tokens = TokenStream.position p.tokens from
    Lexer.position_rewound p.tokens]
  change Rereads origin _ (if Parser.stalledAt (TokenStream.position p.tokens) p.attempts then _
    else _) (if Parser.stalledAt (TokenStream.position p.tokens) p.attempts then _ else _) _
  split
  · exact .failHere
  · rintro _ rfl
    exact ⟨rfl, standing.attempted _⟩

end Rereads

/-! ## Parts of statements that hold no statements -/

/-- Behind the end of a statement any reader may follow. -/
lemma terminator_rereads (after : Terminated) :
    Rereads origin (Standing origin [] .expression) (terminator after) (terminator after)
      fun _ p => ∀ c, Standing origin [] c p := by
  refine (Rereads.next .expression).bind fun t => ?_
  split
  · exact .pure fun _ peeked => peeked.past
  · exact .pure fun _ peeked => peeked.past
  · next end_kind => exact .pushBack fun _ peeked => peeked.toAnywhere (by simp [end_kind]; rfl)
  · next brace => exact .pushBack fun _ peeked => peeked.toAnywhere (by simp [brace]; rfl)
  · exact .fail

section

variable {x : Parse Lexer Expr} {y : Parse Rewinding Expr} (inner : RereadsExpressions origin x y)
include inner

lemma declarator_rereads : RereadsIn .expression origin (declarator x) (declarator y) := by
  refine (Rereads.next .expression).bind fun name => ?_
  split
  · refine .past ((Rereads.next .expression).bind fun t => ?_)
    split
    · exact .past (inner.again.bind fun value => .pure fun _ h => h)
    · exact .returned (.pure fun _ h => h)
  · exact .fail

lemma declaratorsWithin_rereads (budget : Nat) (before : List Declarator) :
    RereadsIn .expression origin (declaratorsWithin x budget before)
      (declaratorsWithin y budget before) := by
  induction budget generalizing before with
  | zero => exact .failHere
  | succ budget ih =>
    refine (declarator_rereads inner).bind fun one => (Rereads.next .expression).bind fun t => ?_
    split
    · exact .past (ih (one :: before))
    · exact .returned (.pure fun _ h => h)

lemma declaration_rereads (start : Span) :
    RereadsIn .expression origin (declaration x start) (declaration y start) := by
  refine .get_bind fun p standing => ?_
  refine Rereads.pre_mono ?_ fun p' (here : p' = p) => here ▸ standing
  exact (declaratorsWithin_rereads inner p.budget []).bind fun ds => .pure fun _ h => h

/-- A keyword that waits behind `for (` is refused. -/
lemma RereadsExpressions.refused {t : Token} {word : Keyword} (keyword : t.kind = .keyword word) :
    Rereads origin
      (fun p => p.tokens.pending = some t ∧
        Refused origin ⟨.grammar (.expressionExpected t.found), t.span⟩)
      x y fun _ _ => False := by
  rintro p ⟨pending, refused⟩
  obtain ⟨e, p', run, same | rfl⟩ := inner.refuses p t word pending keyword
  · rw [run]
    exact .inl same
  · rw [run]
    exact .inr refused

lemma loopStart_rereads {loop opening : Token} (repeats : loop.kind = .keyword .forWord)
    (opens : opening.kind = .leftParen) :
    Rereads origin (Standing origin [loop, opening] .statement) (loopStart x) (loopStart y)
      fun _ => Standing origin [] .expression := by
  refine (Rereads.next .statement).bind fun t => ?_
  split
  · next semicolon =>
    refine .handedBack (fun _ peeked => ?_) (.pure fun _ standing => standing.forget)
    exact peeked.toAnywhere (by rw [semicolon]; rfl) .expression
  · exact .past ((declaration_rereads inner t.span).bind fun ⟨_, _⟩ => .pure fun _ h => h)
  · next other =>
    by_cases keyword : ∃ word, t.kind = .keyword word
    · -- This is the one place where a keyword is left to the reader of an expression.
      obtain ⟨word, keyword⟩ := keyword
      refine (Rereads.pushBack fun p peeked => ⟨rfl, ?_⟩).bind fun _ =>
        (inner.refused keyword).bind fun e => .pure fun _ h => h.elim
      obtain ⟨before, consumes⟩ := peeked.consumed
      refine .keyword consumes repeats opens keyword ?_
      rintro rfl
      exact other keyword
    · refine .handedBack (fun p peeked => peeked.toExpression fun word kind => ?_)
        ((inner.again.pre_mono fun _ h => h.forget).bind fun e => .pure fun _ h => h)
      exact keyword ⟨word, kind⟩

lemma optionalExpression_rereads (closer : TokenKind) :
    RereadsIn .expression origin (optionalExpression x closer) (optionalExpression y closer) := by
  refine Rereads.peekKind.bind fun kind => ?_
  split
  · exact .pure fun _ h => h
  · exact inner.again.bind fun e => .pure fun _ h => h

lemma giveBack_rereads (start : Span) :
    Rereads origin (Standing origin [] .expression) (giveBack x start) (giveBack y start)
      fun _ => Standing origin [] .statement := by
  refine Rereads.peekKind.bind fun kind => ?_
  split
  · exact (terminator_rereads .giveBack).bind fun _ => .pure fun _ ended => ended _
  · refine inner.again.bind fun e => ?_
    exact (terminator_rereads .giveBack).bind fun _ => .pure fun _ ended => ended _

lemma expressionStatement_rereads :
    Rereads origin (Standing origin [] .expression) (expressionStatement x) (expressionStatement y)
      fun _ => Standing origin [] .statement := by
  refine inner.again.bind fun e => ?_
  exact (terminator_rereads .expression).bind fun _ => .pure fun _ ended => ended _

end

/-! ## Statements -/

section

variable {x : Parse Lexer Stmt} {y : Parse Rewinding Stmt}
  (statements : RereadsIn .statement origin x y)
include statements

lemma blockWithin_rereads (start : Span) (budget : Nat) (before : List Stmt) :
    RereadsIn .statement origin (blockWithin x start budget before)
      (blockWithin y start budget before) := by
  induction budget generalizing before with
  | zero => exact .failHere
  | succ budget ih =>
    refine (Rereads.skipNewlines .statement).bind fun t => ?_
    split
    · exact .pure fun _ peeked => peeked.past _
    · exact .fail
    · exact .returned (statements.bind fun one => ih (one :: before))

/-- If no `else` follows, both parsers are where they were. -/
lemma elseBranch_rereads : RereadsIn .statement origin (elseBranch x) (elseBranch y) := by
  refine .get_bind fun p standing => ?_
  have skip : Rereads origin (· = p) (skipNewlines .statement) (skipNewlines .statement)
      (Peeked origin [] .statement) :=
    (Rereads.skipNewlines .statement).pre_mono fun p' here => here ▸ standing
  refine skip.told.bind fun t => ?_
  split
  · refine Rereads.pre_mono (.past (statements.bind fun other => .pure fun _ h => h)) fun _ h => h.1
  · -- The token looked at is forgotten, wherever it was and in whatever context it was read.
    rintro p' ⟨-, run⟩
    obtain ⟨blanks, s, rfl, reads, -⟩ := skipNewlines_reads run
    have back : restore p.tokens s = p.tokens := reads.restore_eq
    have same : ({ p with tokens := restore p.tokens s } : Parser Lexer) = p := by rw [back]
    refine ⟨?_, ?_⟩
    · show _ = EStateM.Result.ok none
        (Parser.rewound { p with tokens := restore p.tokens s })
      rw [same]
      rfl
    · show Standing origin [] .statement { p with tokens := restore p.tokens s }
      rw [same]
      exact standing

variable {x' : Parse Lexer Expr} {y' : Parse Rewinding Expr}
  (expressions : RereadsExpressions origin x' y')
include expressions

lemma choice_rereads (start : Span) :
    Rereads origin (Standing origin [] .expression) (choice x x' start) (choice y y' start)
      fun _ => Standing origin [] .statement := by
  refine .behind .ifOpen .expression (expressions.again.bind fun condition => ?_)
  refine .behind .ifClose .statement ?_
  refine statements.bind fun thenBranch => (elseBranch_rereads statements).bind fun other => ?_
  cases other with
  | none => exact .pure fun _ h => h
  | some other => exact .pure fun _ h => h

lemma loop_rereads {word : Token} (repeats : word.kind = .keyword .forWord) (start : Span) :
    Rereads origin (Standing origin [word] .expression) (loop x x' start) (loop y y' start)
      fun _ => Standing origin [] .statement := by
  refine (Rereads.expect .forOpen).bind fun opening => .pointwise fun p ⟨opens, standing⟩ => ?_
  refine Rereads.pre_mono ?_ fun p' (here : p' = p) => here ▸ standing .statement
  refine (loopStart_rereads expressions repeats opens).bind fun first => ?_
  refine .behind .initializerEnd .expression ?_
  refine (optionalExpression_rereads expressions _).bind fun condition => ?_
  refine .behind .conditionEnd .expression ?_
  refine (optionalExpression_rereads expressions _).bind fun increment => ?_
  refine .behind .forClose .statement ?_
  exact statements.bind fun body => .pure fun _ h => h

lemma statementBody_rereads :
    RereadsIn .statement origin (statementBody x x') (statementBody y y') := by
  refine Rereads.attempt.bind fun _ => (Rereads.skipNewlines .statement).bind fun t => ?_
  split
  · exact .pure fun _ peeked => peeked.past _
  · refine Rereads.past (c := .statement) (.get_bind fun p standing => ?_)
    refine Rereads.pre_mono ?_ fun p' (here : p' = p) => here ▸ standing
    exact blockWithin_rereads statements t.span p.budget []
  · exact .past (choice_rereads statements expressions t.span)
  · next repeats =>
    exact (loop_rereads statements expressions repeats t.span).pre_mono
      fun _ peeked => peeked.onward .expression
  · refine .past ((declaration_rereads expressions t.span).bind fun ⟨declarators, span⟩ => ?_)
    exact (terminator_rereads .declaration).bind fun _ => .pure fun _ ended => ended _
  · exact .past (giveBack_rereads expressions t.span)
  · exact .returned (.pure fun _ h => h)
  · exact .returned (.pure fun _ h => h)
  · exact .returned (.pure fun _ h => h)
  · exact .fail
  · exact .fail
  · next ifWord forWord varWord returnWord _ _ elseWord _ _ =>
    refine .handedBack (fun _ peeked => ?_) (expressionStatement_rereads expressions)
    refine peeked.toExpression fun word kind => ?_
    cases word with
    | ifWord => exact ifWord kind
    | elseWord => exact elseWord kind
    | varWord => exact varWord kind
    | forWord => exact forWord kind
    | returnWord => exact returnWord kind

end

lemma statement_rereads (room : Nat) :
    RereadsIn .statement origin (statement room) (statement room) := by
  induction room with
  | zero => exact .failHere
  | succ room ih => exact statementBody_rereads ih (expression_rereads room)

lemma topLevel_rereads (room : Nat) :
    RereadsIn .statement origin (topLevel room) (topLevel room) := by
  refine (Rereads.skipNewlines .statement).bind fun t => ?_
  split
  · exact .pure fun _ peeked => peeked.past _
  · exact .returned ((statement_rereads room).bind fun s => .pure fun _ h => h)

end Parse

/-! ## Scripts -/

namespace Script

section

variable {τ : Type} [TokenStream τ]

/-- The statements that have been read are the first ones of the script. -/
lemma prefix_readWithin (budget : Nat) (before : List (Stmt × Nat)) (p : Parser τ) :
    before.reverse <+: (readWithin budget before p).statements := by
  induction budget generalizing before p with
  | zero => exact List.prefix_rfl
  | succ budget ih =>
    rw [readWithin]
    split
    · next s p' run =>
      refine List.IsPrefix.trans ?_ (ih ((s, p'.line) :: before) p')
      simp
    · exact List.prefix_rfl
    · exact List.prefix_rfl

end

/-- Reading on in a script, a parser that goes back for a token reads the same, or the parser on the
lexer refuses a keyword behind `for (`. -/
lemma readWithin_rereads {origin : Lexer} (budget : Nat) (before : List (Stmt × Nat))
    {p : Parser Lexer} (standing : p.Standing origin [] .statement) :
    readWithin budget before p = readWithin budget before p.rewound ∨
      ∃ e, (readWithin budget before p).error = some e ∧ Refused origin e ∧
        (readWithin budget before p).statements <+:
          (readWithin budget before p.rewound).statements := by
  induction budget generalizing before p with
  | zero =>
    rw [readWithin, readWithin, p.line_rewound]
    exact .inl rfl
  | succ budget ih =>
    have done := Parse.topLevel_rereads nestingLimit p standing
    cases run : Parse.topLevel nestingLimit p with
    | ok found p' =>
      rw [run] at done
      obtain ⟨run', standing'⟩ := done
      rw [readWithin, readWithin, run, run']
      cases found with
      | none =>
        exact .inl (by simp only [p'.line_rewound])
      | some s =>
        simp only [p'.line_rewound]
        exact ih ((s, p'.line) :: before) standing'
    | error e p' =>
      rw [run] at done
      rcases done with run' | refused
      · rw [readWithin, readWithin, run, run']
        exact .inl (by simp only [p'.line_rewound])
      · refine .inr ⟨e, ?_, refused, ?_⟩
        · rw [readWithin, run]
        · have first := prefix_readWithin (budget + 1) before p.rewound
          rwa [readWithin, run]

/-- Where the statements of a script stand, and which keywords they have. -/
lemma ReadFrom.keywords_eq {origin : Lexer} {p : Parser Lexer} {script : Script}
    (reads : ReadFrom p script) {front : List Token}
    (consumed : Consumes everywhere origin front p.tokens) :
    ∀ s ∈ script.statements, ∃ before ts rest l,
      Consumes everywhere origin (before ++ ts) l ∧ s.1.DerivedFrom ts rest ∧
        Token.keywords ts = s.1.keywords := by
  induction reads generalizing front with
  | done run => simp
  | failed run => simp
  | @statement p p' s rest run onward ih =>
    obtain ⟨ts, awaited, read, -⟩ := Parse.topLevel_reads run
    have further := consumed.trans read.moves.tokens
    intro s' mem
    rcases List.mem_cons.1 mem with rfl | later
    · exact ⟨front, ts, _, p'.tokens, further, read.derived, read.derived.keywords_eq⟩
    · exact ih further s' later

/-- A parser that goes back for every token it hands back, and reads it once more in the context of
the next read, reads the same statements and the same error; or the script is refused for a keyword
other than `var` directly behind `for (`, and what stands before is read the same.

In every statement that is accepted the tokens that are keywords are those of the grammar; read in an
expression no token is one, and what would be one at the start of a statement is a name of that
spelling. -/
theorem ofText_rereads_or_refuses (text : String) :
    (ofText text = ofStream (Rewinding.ofScript text) ∨
      ∃ e, (ofText text).error = some e ∧ Refused (Lexer.ofScript text) e ∧
        (ofText text).statements <+: (ofStream (Rewinding.ofScript text)).statements) ∧
    (∀ s ∈ (ofText text).statements, ∃ before ts rest l,
      Consumes everywhere (Lexer.ofScript text) (before ++ ts) l ∧ s.1.DerivedFrom ts rest ∧
        Token.keywords ts = s.1.keywords) ∧
    (∀ (s s' : Rewinding) (t : Token) (word : Keyword),
      (s.next .expression = (.ok t, s') → t.kind ≠ .keyword word) ∧
        (s.next .statement = (.ok t, s') → t.kind = .keyword word →
          ∃ u s₁, s.next .expression = (.ok u, s₁) ∧ (u.kind = .name ∨ u.kind = .callName) ∧
            u.lexeme = t.lexeme ∧ u.span = t.span)) := by
  refine ⟨?_, ?_, fun s s' t word => ⟨fun read => ?_, fun read keyword => ?_⟩⟩
  · exact readWithin_rereads _ [] (Parser.standing_ofScript text .statement)
  · exact (ofText_readFrom text).keywords_eq (.refl _)
  · exact Rewinding.kind_ne_keyword read word
  · exact Rewinding.next_expression_of_keyword read keyword

/-- Behind `var` a variable may be called `if`: the parsers agree, and the loop has two keywords, the
`for` and the `var`.  Where a statement may start `if` is a keyword, and a name in an expression. -/
theorem ofText_rereads_or_refuses_var :
    ofText "for (var if = 0; if < 3; if++) 'again'" =
        ofStream (Rewinding.ofScript "for (var if = 0; if < 3; if++) 'again'") ∧
      (∃ s ∈ (ofText "for (var if = 0; if < 3; if++) 'again'").statements, ∃ ts rest,
        s.1.DerivedFrom ts rest ∧ Token.keywords ts = [.forWord, .varWord]) ∧
      ∃ u s, (Rewinding.ofScript "if").next .expression = (.ok u, s) ∧
        (u.kind = .name ∨ u.kind = .callName) ∧ u.lexeme = "if" := by
  obtain ⟨same, places, contexts⟩ :=
    ofText_rereads_or_refuses "for (var if = 0; if < 3; if++) 'again'"
  refine ⟨same.resolve_right ?_, ?_, ?_⟩
  · rintro ⟨e, failed, -⟩
    have accepted : (ofText "for (var if = 0; if < 3; if++) 'again'").error = none := by
      decide +kernel
    rw [accepted] at failed
    cases failed
  · have shape : (ofText "for (var if = 0; if < 3; if++) 'again'").statements.head?.map
        (fun s => s.1.keywords) = some [.forWord, .varWord] := by
      decide +kernel
    obtain ⟨s, first, shaped⟩ := Option.map_eq_some_iff.1 shape
    have mem := List.mem_of_head? first
    obtain ⟨-, ts, rest, -, -, derived, keywords⟩ := places s mem
    exact ⟨s, mem, ts, rest, derived, keywords.trans shaped⟩
  · have first : ((Rewinding.ofScript "if").next .statement).1 =
        .ok ⟨.keyword .ifWord, "if", ⟨0, 2, 1⟩⟩ := by
      decide +kernel
    obtain ⟨u, s, read, kind, lexeme, -⟩ :=
      (contexts (Rewinding.ofScript "if") _ _ .ifWord).2 (Prod.ext first rfl) rfl
    exact ⟨u, s, read, kind, lexeme⟩

/-- Without the `var` the same loop is refused, though read again its `if` is a name. -/
theorem keyword_refused_behind_for :
    (ofText "for (if = 0; if < 3; if++) 'again'").error =
        some ⟨.grammar (.expressionExpected (.lexeme "if")), ⟨5, 7, 1⟩⟩ ∧
      (ofStream (Rewinding.ofScript "for (if = 0; if < 3; if++) 'again'")).error = none := by
  decide +kernel

end Script
end ScriptEngine
