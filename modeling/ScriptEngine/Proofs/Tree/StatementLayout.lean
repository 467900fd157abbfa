import ScriptEngine.Proofs.Tree.ExpressionLayout
import ScriptEngine.Proofs.Tree.Progress

/-!
# How statements are laid out

Every function that reads a part of a statement lays out what it reads, if the readers of the
statements and expressions inside it do.  `Parse.statement_lays` ties the knot.  So the trees of a
script are well nested, and the error that ends it is located (`Script.ofText_laidOut`).
-/

namespace ScriptEngine

open Outline (Row)

/-- Where a statement stands that has been read by itself. -/
lemma Stmt.placed {text : List Char} {p r q s : Nat} {stmt : Stmt}
    (row : Row text p r q s [stmt.outline]) :
    stmt.span.Located text ∧ p ≤ stmt.span.start ∧ stmt.span.stop ≤ s := by
  obtain ⟨nested, start, stop⟩ := row.only
  have located := nested.located
  rw [span_outline] at located start stop
  exact ⟨located, start, stop⟩

namespace Parse

open Lexer (At Past)

variable {text : List Char} {p r q s : Nat}

section

variable {α : Type} {post : α → Lexer → Prop}

lemma terminator_bind (after : Terminated) {f : Unit → Parse Lexer α}
    (rest : Locates text (At text p r) (f ()) post) :
    Locates text (At text p r) (terminator after >>= f) post := by
  have read : Locates text (At text p r) (terminator after) fun _ => At text p r := by
    refine .next_bind .expression fun t beyond => ?_
    have onward : Locates text (Past text t) (pure ()) fun _ => At text p r :=
      .consumed (.pure fun _ here => here.mono (beyond.start.trans beyond.located.span.start_le_stop)
        beyond.stop)
    split
    · exact onward
    · exact onward
    · exact .restored beyond (.pure fun _ here => here)
    · exact .restored beyond (.pure fun _ here => here)
    · exact .fail beyond.located.span
  exact read.bind fun _ => rest

lemma attempt_bind {f : Unit → Parse Lexer α} (rest : Locates text (At text p r) (f ()) post) :
    Locates text (At text p r) (attempt >>= f) post := by
  have tried : Locates text (At text p r) attempt fun _ => At text p r := by
    refine .get_bind fun parser here => ?_
    dsimp only
    split
    · exact .failHere
    · exact fun _ _ => here
  exact tried.bind fun _ => rest

end

section

variable {x : Parse Lexer Expr} (expressions : Lays text x fun e => [e.outline])
include expressions

lemma declarator_lays : Lays text (declarator x) fun d => [d.outline] := by
  intro p r
  refine .next_bind .expression fun name beyond => ?_
  split
  · refine .consumed (.next_bind .expression fun t next => ?_)
    split
    · refine .consumed (expressions.bind fun value q s row => .done ?_)
      obtain ⟨located, -, stop⟩ := Expr.placed row
      exact (row.behind next).construct beyond located stop (by simp)
    · refine .restored next (.done ?_)
      exact (Row.nil (Nat.le_refl _) (Nat.le_refl _)).construct beyond beyond.located.span
        (Nat.le_refl _) (by simp)
  · exact .fail beyond.located.span

/-- Each declarator starts behind all those in front of it, and so ends behind them. -/
lemma declaratorsWithin_lays (budget : Nat) (before : List Declarator)
    (row : Row text p r q q (before.reverse.map Declarator.outline)) :
    Locates text (At text q q) (declaratorsWithin x budget before) fun ds l =>
      ∃ last q s, ds.getLast? = some last ∧ Row text p r q s (ds.map Declarator.outline) ∧
        (∀ o ∈ ds.map Declarator.outline, o.span.stop ≤ last.span.stop) ∧ l.At text q s := by
  induction budget generalizing before q with
  | zero => exact .failHere
  | succ budget ih =>
    refine (declarator_lays expressions).bind fun one q' s one_row => ?_
    obtain ⟨nested, start, -⟩ := one_row.only
    have inside := row.stop_le_last nested start
    have row := row.append one_row
    have outlines : before.reverse.map Declarator.outline ++ [one.outline] =
        (one :: before).reverse.map Declarator.outline := by simp
    rw [outlines] at row inside
    refine .next_bind .expression fun t next => ?_
    split
    · exact .consumed (ih (one :: before) (row.before next))
    · exact .restored next (.pure fun l here => ⟨one, q', s, by simp, row, inside, here⟩)

lemma declaration_lays {t : Token} (beyond : t.Beyond text p r) :
    Locates text (At text t.span.stop t.span.stop) (declaration x t.span) fun (ds, span) =>
      LaidOut text p r [.node span (ds.map Declarator.outline)] := by
  refine .get_bind fun parser _ => ?_
  refine (declaratorsWithin_lays expressions parser.budget []
    (.nil (Nat.le_refl _) (Nat.le_refl _))).bind fun ds => ?_
  rintro parser ⟨last, q, s, is_last, row, inside, here⟩
  have mem : last.outline ∈ ds.map Declarator.outline :=
    List.mem_map_of_mem (List.mem_of_getLast? is_last)
  have located := (row.nested _ mem).located
  have stop := row.stop _ mem
  rw [is_last]
  exact ⟨q, s, row.construct beyond located stop inside, here⟩

lemma loopStart_lays : Lays text (loopStart x) Stmt.branchOutline := by
  intro p r
  refine .next_bind .statement fun t beyond => ?_
  split
  · exact .restored beyond (.done (.nil (Nat.le_refl _) (Nat.le_refl _)))
  · exact .consumed ((declaration_lays expressions beyond).bind fun (ds, span) =>
      .pure fun _ laid => laid)
  · refine .restored beyond (expressions.bind fun e q s row => .done ?_)
    have row := row.around
    rwa [Expr.span_outline] at row

lemma optionalExpression_lays (closer : TokenKind) :
    Lays text (optionalExpression x closer) Expr.optionOutline := by
  intro p r
  refine .peekKind_bind fun kind => ?_
  split
  · exact .done (.nil (Nat.le_refl _) (Nat.le_refl _))
  · exact expressions.bind fun e q s row => .done row

lemma giveBack_lays {t : Token} (beyond : t.Beyond text p r) :
    Locates text (At text t.span.stop t.span.stop) (giveBack x t.span)
      fun stmt => LaidOut text p r [stmt.outline] := by
  refine .peekKind_bind fun kind => ?_
  split
  · exact terminator_bind .giveBack (.done (.leaf beyond))
  · refine expressions.bind fun value q s row => terminator_bind .giveBack (.done ?_)
    obtain ⟨located, -, stop⟩ := Expr.placed row
    exact row.construct beyond located stop (by simp)

lemma expressionStatement_lays : Lays text (expressionStatement x) fun stmt => [stmt.outline] := by
  intro p r
  refine expressions.bind fun e q s row => terminator_bind .expression (.done ?_)
  have whole := row.around
  rw [Expr.span_outline] at whole
  exact whole

end

section

variable {y : Parse Lexer Stmt} (statements : Lays text y fun stmt => [stmt.outline])
include statements

lemma blockWithin_lays {t : Token} (beyond : t.Beyond text p r) (budget : Nat)
    (before : List Stmt)
    (row : Row text t.span.stop t.span.stop q s (Stmt.outlines before.reverse)) :
    Locates text (At text q s) (blockWithin y t.span budget before)
      fun stmt => LaidOut text p r [stmt.outline] := by
  induction budget generalizing before q s with
  | zero => exact .failHere
  | succ budget ih =>
    refine .skipNewlines_bind .statement fun u next => ?_
    split
    · have row := row.before next
      exact .consumed (.done (row.construct beyond next.located.span (Nat.le_refl _) row.stop))
    · exact .fail next.located.span
    · refine .restored next (statements.bind fun one q s one_row => ih (one :: before) ?_)
      rw [List.reverse_cons, Stmt.outlines_append]
      exact row.append one_row

/-- An `else` branch starts behind all that was read before. -/
lemma elseBranch_lays : Locates text (At text q s) (elseBranch y) fun other l =>
    ∃ q' s', Row text q s q' s' (Stmt.branchOutline other) ∧
      (∀ o ∈ Stmt.branchOutline other, s ≤ o.span.start) ∧ l.At text q' s' := by
  refine .get_bind fun parser here => ?_
  refine .skipNewlines_bind .statement fun t next => ?_
  split
  · refine .consumed (statements.bind fun other q' s' row => .pure fun l here => ?_)
    have start := (row.only).2.1
    exact ⟨q', s', row.behind next, by simpa [Stmt.branchOutline] using next.stop.trans start, here⟩
  · -- Without an `else` the lexer goes back over the newlines to where it was.
    intro now past
    have text_eq : now.tokens.cursor.text = parser.tokens.cursor.text :=
      past.onward.located.cursor.text_eq.trans here.located.cursor.text_eq.symm
    have back : TokenStream.restore parser.tokens now.tokens = parser.tokens :=
      Lexer.restore_save text_eq
    refine ⟨q, s, .nil (Nat.le_refl _) (Nat.le_refl _), by simp [Stmt.branchOutline], ?_⟩
    change (TokenStream.restore parser.tokens now.tokens).At text q s
    rw [back]
    exact here

end

section

variable {x : Parse Lexer Expr} {y : Parse Lexer Stmt}
  (expressions : Lays text x fun e => [e.outline])
  (statements : Lays text y fun stmt => [stmt.outline])
include expressions statements

lemma choice_lays {t : Token} (beyond : t.Beyond text p r) :
    Locates text (At text t.span.stop t.span.stop) (choice y x t.span)
      fun stmt => LaidOut text p r [stmt.outline] := by
  refine .expect_bind .ifOpen fun open_paren opened => ?_
  refine expressions.bind fun condition q s conditions => ?_
  refine .expect_bind .ifClose fun close_paren closed => ?_
  -- All of the condition ends in front of the branch, because the parenthesis stands in between.
  have head := (conditions.behind opened).before closed
  refine statements.bind fun thenBranch q s thens => ?_
  have branches := head.append thens
  obtain ⟨nested, start, -⟩ := thens.only
  obtain ⟨located, -, stop⟩ := Stmt.placed thens
  have inside := head.stop_le_last nested start
  refine (elseBranch_lays statements).bind fun other => ?_
  rintro parser ⟨q', s', others, behind, here⟩
  have whole := branches.append others
  cases other with
  | none =>
    rw [Stmt.span_outline] at inside
    have row := whole.construct beyond located (stop.trans others.reach) inside
    exact Locates.done row parser here
  | some other =>
    obtain ⟨nested', -, -⟩ := others.only
    obtain ⟨located', -, stop'⟩ := Stmt.placed others
    have inside' := branches.stop_le_last nested' (behind _ List.mem_cons_self)
    rw [Stmt.span_outline] at inside'
    have row := whole.construct beyond located' stop' inside'
    exact Locates.done row parser here

lemma loop_lays {t : Token} (beyond : t.Beyond text p r) :
    Locates text (At text t.span.stop t.span.stop) (loop y x t.span)
      fun stmt => LaidOut text p r [stmt.outline] := by
  refine .expect_bind .forOpen fun _ opened => ?_
  refine (loopStart_lays expressions).bind fun first q s starts => ?_
  refine .expect_bind .initializerEnd fun _ second => ?_
  refine (optionalExpression_lays expressions .semicolon).bind fun condition q s conditions => ?_
  refine .expect_bind .conditionEnd fun _ third => ?_
  refine (optionalExpression_lays expressions .rightParen).bind fun increment q s increments => ?_
  refine .expect_bind .forClose fun _ closed => ?_
  have clauses := (((starts.behind opened).append (conditions.behind second)).append
    (increments.behind third)).before closed
  refine statements.bind fun body q s bodies => .done ?_
  obtain ⟨nested, start, -⟩ := bodies.only
  obtain ⟨located, -, stop⟩ := Stmt.placed bodies
  have inside := clauses.stop_le_last nested start
  have whole := clauses.append bodies
  rw [Stmt.span_outline] at inside
  simp only [List.append_assoc] at whole inside
  exact whole.construct beyond located stop inside

lemma statementBody_lays : Lays text (statementBody y x) fun stmt => [stmt.outline] := by
  intro p r
  refine attempt_bind (.skipNewlines_bind .statement fun t beyond => ?_)
  -- The lexer stays in front of a token that is left unread, but the statement reaches behind it.
  have left_unread : Row text p r t.span.start t.span.stop [.node t.span []] :=
    .single (.leaf beyond.located.span) beyond.start (Nat.le_refl _) (Nat.le_refl _) beyond.stop
  split
  · exact .consumed (.done (.leaf beyond))
  · refine .consumed (.get_bind fun parser _ => ?_)
    exact blockWithin_lays statements beyond parser.budget [] (.nil (Nat.le_refl _) (Nat.le_refl _))
  · exact .consumed (choice_lays expressions statements beyond)
  · exact .consumed (loop_lays expressions statements beyond)
  · refine .consumed ((declaration_lays expressions beyond).bind fun (ds, span) => ?_)
    rintro parser ⟨q, s, row, here⟩
    have done : Locates text (At text q s) (pure (Stmt.declare ds span))
        fun stmt => LaidOut text p r [stmt.outline] := .done row
    exact terminator_bind .declaration done parser here
  · exact .consumed (giveBack_lays expressions beyond)
  · exact .handedBack (.done left_unread)
  · exact .handedBack (.done left_unread)
  · exact .handedBack (.done left_unread)
  · exact .fail beyond.located.span
  · exact .fail beyond.located.span
  · exact .restored beyond (expressionStatement_lays expressions p r)

end

/-- The spans of a statement are well nested. -/
lemma statement_lays (room : Nat) : Lays text (statement room) fun stmt => [stmt.outline] := by
  induction room with
  | zero => exact fun p r => .failHere
  | succ room ih => exact statementBody_lays (expression_lays room) ih

lemma topLevel_lays (room : Nat) : Lays text (topLevel room) Stmt.branchOutline := by
  intro p r
  refine .skipNewlines_bind .statement fun t beyond => ?_
  split
  · exact .consumed (.done (.token beyond))
  · exact .restored beyond ((statement_lays room).bind fun stmt q s row => .done row)

end Parse

namespace Script

/-- All spans of the statements are well nested in the text, and the error is located there. -/
structure LaidOut (text : List Char) (script : Script) : Prop where
  trees : ∀ stmt ∈ script.trees, stmt.outline.WellNested text
  error : ∀ e ∈ script.error, e.Located text

lemma ReadFrom.laidOut {text : List Char} {p : Parser Lexer} {script : Script} {q s : Nat}
    (reads : ReadFrom p script) (here : p.tokens.At text q s) : script.LaidOut text := by
  induction reads generalizing q s with
  | done run => exact ⟨by simp [trees], by simp⟩
  | failed run =>
    have failed := Parse.topLevel_lays nestingLimit q s _ here
    rw [run] at failed
    exact ⟨by simp [trees], by simpa using failed⟩
  | statement run onward ih =>
    have read := Parse.topLevel_lays nestingLimit q s _ here
    rw [run] at read
    obtain ⟨q', s', row, here'⟩ := read
    obtain ⟨laid, error⟩ := ih here'
    exact ⟨List.forall_mem_cons.2 ⟨row.only.1, laid⟩, error⟩

/-- A script that is read from a text is laid out in it. -/
theorem ofText_laidOut (text : String) : (ofText text).LaidOut text.toList :=
  (ofText_readFrom text).laidOut (Lexer.at_ofScript text)

end Script
end ScriptEngine
