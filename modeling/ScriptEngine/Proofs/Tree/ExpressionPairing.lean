import ScriptEngine.Proofs.Tree.Pairing

/-!
# Expressions side by side

Aligned parsers read the same expressions and stay aligned: at the end of an expression a token is
looked at and handed back, so the first parser is never past its end here.
-/

namespace ScriptEngine
namespace Pairing

open Parse (argumentsWithin call named operand operandAfter rightOperand chainWithin firstOperand
  expressionBody)

variable {σ τ : Type} [TokenStream σ] [TokenStream τ] {P : Pairing σ τ}

/-- Both readers read the same expressions. -/
def PairsExpressions (P : Pairing σ τ) (x : Parse σ Expr) (y : Parse τ Expr) : Prop :=
  ∀ p q, P.aligned p q → P.Ends (P.Both P.SameExpr) (x p) (y q)

variable {x : Parse σ Expr} {y : Parse τ Expr} {p : Parser σ} {q : Parser τ} (lawful : P.Lawful)
  (inner : P.PairsExpressions x y)
include lawful inner

lemma argumentsWithin_pairs {budget budget' : Nat} {before before' : List Expr}
    (within : P.Within budget budget')
    (same : before.map (Expr.mapSpan P.left) = before'.map (Expr.mapSpan P.right))
    (aligned : P.aligned p q) :
    P.Ends (P.Both fun args args' =>
        args.1.map (Expr.mapSpan P.left) = args'.1.map (Expr.mapSpan P.right) ∧
          P.left args.2.span = P.right args'.2.span)
      (argumentsWithin x budget before p) (argumentsWithin y budget' before' q) := by
  induction budget generalizing budget' before before' p q with
  | zero => exact Ends.exhausted (g := (argumentsWithin y · before')) lawful aligned within rfl
  | succ budget ih =>
    obtain ⟨less, rfl, fewer⟩ := within.exists_succ
    rw [argumentsWithin, argumentsWithin]
    refine (inner p q aligned).bind_both fun e e' p q e_same aligned => ?_
    have longer : (e :: before).map (Expr.mapSpan P.left) =
        (e' :: before').map (Expr.mapSpan P.right) := by
      rw [List.map_cons, List.map_cons, same, e_same]
    refine (lawful.next .expression aligned).bind fun t u p q read => ?_
    rcases read.token with ⟨token, aligned⟩ | ⟨lax, end_kind, -, -⟩
    · rw [← token.kind]
      cases kind : t.kind with
      | comma => exact ih fewer longer aligned
      | rightParen =>
        refine .pure ⟨⟨?_, token.span⟩, aligned⟩
        rw [List.map_reverse, List.map_reverse, longer]
      | _ => exact .fail aligned token.span (by rw [token.found])
    · rw [end_kind]
      exact .of_fail lax

lemma call_pairs {callee callee' : Token} (token : P.SameToken callee callee')
    (aligned : P.aligned p q) :
    P.Ends (P.Both P.SameExpr) (call x callee p) (call y callee' q) := by
  refine (expect_pairs lawful .callOpen aligned).bind_both fun _ _ p q _ aligned => ?_
  refine (lawful.next .expression aligned).bind fun t u p q read => ?_
  have others : P.Ends (P.Both P.SameExpr)
        ((do
          Parse.pushBack t
          let read ← argumentsWithin x (← get).budget []
          return .call callee.lexeme read.1 (callee.span.through read.2.span) : Parse σ Expr) p)
        ((do
          Parse.pushBack u
          let read ← argumentsWithin y (← get).budget []
          return .call callee'.lexeme read.1 (callee'.span.through read.2.span) :
            Parse τ Expr) q) := by
    refine (pushBack_pairs read).bind_both fun _ _ p q _ aligned => ?_
    rw [Parse.get_bind_apply, Parse.get_bind_apply]
    refine (argumentsWithin_pairs lawful inner (lawful.budget aligned) rfl aligned).bind ?_
    rintro ⟨args, close⟩ ⟨args', close'⟩ p q ⟨⟨args_same, close_same⟩, aligned⟩
    refine .pure ⟨?_, aligned⟩
    rw [SameExpr, Expr.mapSpan, Expr.mapSpan, Expr.mapSpans_eq_map, Expr.mapSpans_eq_map, args_same,
      token.lexeme, lawful.spans.through token.span close_same]
  rcases read.token with ⟨same, aligned⟩ | ⟨-, end_kind, newline, -⟩
  · by_cases close : t.kind = .rightParen
    · rw [if_pos close, if_pos (same.kind ▸ close)]
      refine .pure ⟨?_, aligned⟩
      have spans := lawful.spans.through token.span same.span
      rw [SameExpr, Expr.mapSpan, Expr.mapSpan, token.lexeme, spans]
      rfl
    · rw [if_neg close, if_neg (same.kind ▸ close)]
      exact others
  · rw [if_neg (by simp [end_kind]), if_neg (by simp [newline])]
    exact others

lemma named_pairs {name name' : Token} (token : P.SameToken name name')
    (aligned : P.aligned p q) :
    P.Ends (P.Both P.SameExpr) (named x name p) (named y name' q) := by
  refine (lawful.next .expression aligned).bind fun t u p q read => ?_
  -- A variable alone, in front of whatever it is that follows.
  have alone : P.Ends (P.Both P.SameExpr)
      ((do Parse.pushBack t; return .read name.lexeme name.span : Parse σ Expr) p)
      ((do Parse.pushBack u; return .read name'.lexeme name'.span : Parse τ Expr) q) := by
    refine (pushBack_pairs read).bind_both fun _ _ p q _ aligned => .pure ⟨?_, aligned⟩
    rw [SameExpr, Expr.mapSpan, Expr.mapSpan, token.lexeme, token.span]
  rcases read.token with ⟨same, aligned⟩ | ⟨-, end_kind, newline, -⟩
  · have stepped (op : Operator) : P.Ends (P.Both P.SameExpr)
        ((return .step name.lexeme op (name.span.through t.span) : Parse σ Expr) p)
        ((return .step name'.lexeme op (name'.span.through u.span) : Parse τ Expr) q) := by
      refine .pure ⟨?_, aligned⟩
      have spans := lawful.spans.through token.span same.span
      rw [SameExpr, Expr.mapSpan, Expr.mapSpan, token.lexeme, spans]
    rw [← same.kind]
    cases kind : t.kind with
    | assign =>
      refine (startsExpression_pairs lawful aligned).bind_both fun k k' p q starts aligned => ?_
      rw [← starts]
      split
      · refine (inner p q aligned).bind_both fun value value' p q value_same aligned => ?_
        refine .pure ⟨?_, aligned⟩
        rw [SameExpr, Expr.mapSpan, Expr.mapSpan, token.lexeme, value_same,
          lawful.spans.through token.span value_same.span]
      · exact .fail aligned same.span (by rw [token.lexeme])
    | operator op =>
      cases op with
      | increment => exact stepped .increment
      | decrement => exact stepped .decrement
      | _ => exact alone
    | _ => exact alone
  · rw [end_kind, newline]
    exact alone

lemma operand_pairs (aligned : P.aligned p q) :
    P.Ends (P.Both P.SameExpr) (operand x p) (operand y q) := by
  refine (lawful.next .expression aligned).bind fun t u p q read => ?_
  rcases read.token with ⟨token, aligned⟩ | ⟨lax, end_kind, -, -⟩
  · rw [← token.kind]
    cases kind : t.kind with
    | literal =>
      refine .pure ⟨?_, aligned⟩
      rw [SameExpr, Expr.mapSpan, Expr.mapSpan, token.lexeme, token.span]
    | name => exact named_pairs lawful inner token aligned
    | callName => exact call_pairs lawful inner token aligned
    | leftParen =>
      refine (inner p q aligned).bind_both fun e e' p q same aligned => ?_
      refine (expect_pairs lawful .groupClose aligned).bind_both
        fun close close' p q closes aligned => ?_
      refine .pure ⟨?_, aligned⟩
      rw [SameExpr, Expr.mapSpan, Expr.mapSpan, same, lawful.spans.through token.span closes.span]
    | _ => exact .fail aligned token.span (by rw [token.found])
  · rw [end_kind]
    exact .of_fail lax

lemma operandAfter_pairs {operator operator' : Token}
    (token : P.SameToken operator operator') (aligned : P.aligned p q) :
    P.Ends (P.Both P.SameExpr) (operandAfter x operator p) (operandAfter y operator' q) := by
  refine (startsOperand_pairs lawful aligned).bind_both fun k k' p q starts aligned => ?_
  rw [← starts]
  split
  · exact operand_pairs lawful inner aligned
  · refine (lawful.next .expression aligned).bind fun t u p q read => ?_
    rcases read.token with ⟨same, aligned⟩ | ⟨lax, -, -, -⟩
    · exact .fail aligned same.span (by rw [token.lexeme, same.found])
    · exact .of_fail lax

lemma rightOperand_pairs (op : Operator) {operator operator' : Token}
    (token : P.SameToken operator operator') (aligned : P.aligned p q) :
    P.Ends (P.Both P.SameExpr) (rightOperand x op operator p) (rightOperand y op operator' q) := by
  rw [rightOperand, rightOperand]
  split
  · refine (startsOperand_pairs lawful aligned).bind_both fun k k' p q starts aligned => ?_
    rw [← starts]
    split
    · exact operandAfter_pairs lawful inner token aligned
    · refine .pure ⟨?_, aligned⟩
      rw [SameExpr, Expr.mapSpan, Expr.mapSpan, lawful.spans.empty_stop token.span]
  · exact operandAfter_pairs lawful inner token aligned

omit inner in
lemma join_pairs {first first' : Expr} {rest rest' : List (Operator × Expr)} {last last' : Span}
    (first_same : P.SameExpr first first')
    (rest_same : Expr.mapLinkSpans P.left rest = Expr.mapLinkSpans P.right rest')
    (last_same : P.left last = P.right last') :
    P.SameExpr (Expr.join first rest last) (Expr.join first' rest' last') := by
  cases rest with
  | nil =>
    cases rest' with
    | nil => exact first_same
    | cons link rest' => simp [Expr.mapLinkSpans_eq_map] at rest_same
  | cons link rest =>
    cases rest' with
    | nil => simp [Expr.mapLinkSpans_eq_map] at rest_same
    | cons link' rest' =>
      change (Expr.chain first (link :: rest) _).mapSpan P.left =
        (Expr.chain first' (link' :: rest') _).mapSpan P.right
      rw [Expr.mapSpan, Expr.mapSpan, first_same, rest_same,
        lawful.spans.through first_same.span last_same]

lemma chainWithin_pairs {budget budget' : Nat} {first first' : Expr}
    {before before' : List (Operator × Expr)} {last last' : Span}
    (within : P.Within budget budget') (first_same : P.SameExpr first first')
    (same : Expr.mapLinkSpans P.left before.reverse = Expr.mapLinkSpans P.right before'.reverse)
    (last_same : P.left last = P.right last') (aligned : P.aligned p q) :
    P.Ends (P.Both P.SameExpr) (chainWithin x first budget before last p)
      (chainWithin y first' budget' before' last' q) := by
  induction budget generalizing budget' before before' last last' p q with
  | zero =>
    exact Ends.exhausted (g := (chainWithin y first' · before' last')) lawful aligned within rfl
  | succ budget ih =>
    obtain ⟨less, rfl, fewer⟩ := within.exists_succ
    refine (lawful.next .expression aligned).bind fun t u p q read => ?_
    have joined := join_pairs lawful first_same same last_same
    -- A token that is no operator ends the chain for both, and so does a newline in one where the
    -- other is at its end.
    have stops : P.Ends (P.Both P.SameExpr)
        ((do Parse.pushBack t; return .join first before.reverse last : Parse σ Expr) p)
        ((do Parse.pushBack u; return .join first' before'.reverse last' : Parse τ Expr) q) := by
      refine (pushBack_pairs read).bind_both fun _ _ p q _ aligned => ?_
      exact .pure ⟨joined, aligned⟩
    rcases read.token with ⟨token, aligned⟩ | ⟨-, end_kind, newline, -⟩
    · rw [← token.kind]
      cases kind : t.kind with
      | operator op =>
        simp only
        split
        · refine (startsExpression_pairs lawful aligned).bind_both fun k k' p q starts aligned => ?_
          rw [← starts]
          split
          · refine (inner p q aligned).bind_both fun right right' p q right_same aligned => ?_
            refine .pure ⟨?_, aligned⟩
            rw [SameExpr, Expr.mapSpan, Expr.mapSpan, joined, right_same,
              lawful.spans.through joined.span right_same.span]
          · exact .fail aligned token.span (by rw [token.lexeme])
        · refine (rightOperand_pairs lawful inner op token aligned).bind_both
            fun right right' p q right_same aligned => ?_
          refine ih fewer ?_ right_same.span aligned
          rw [List.reverse_cons, List.reverse_cons, Expr.mapLinkSpans_append,
            Expr.mapLinkSpans_append, same, Expr.mapLinkSpans, Expr.mapLinkSpans, right_same]
          rfl
      | _ => exact stops
    · rw [end_kind, newline]
      exact stops

lemma firstOperand_pairs (aligned : P.aligned p q) :
    P.Ends (P.Both P.SameExpr) (firstOperand x p) (firstOperand y q) := by
  refine (lawful.next .expression aligned).bind fun t u p q read => ?_
  refine (pushBack_pairs read).bind_both fun _ _ p q _ aligned => ?_
  rcases read.token with ⟨token, -⟩ | ⟨-, end_kind, newline, -⟩
  · rw [← token.kind]
    cases kind : t.kind with
    | operator op =>
      refine .pure ⟨?_, aligned⟩
      rw [SameExpr, Expr.mapSpan, Expr.mapSpan, lawful.spans.empty_start token.span]
    | _ => exact operand_pairs lawful inner aligned
  · rw [end_kind, newline]
    exact operand_pairs lawful inner aligned

lemma expressionBody_pairs : P.PairsExpressions (expressionBody x) (expressionBody y) := by
  intro p q aligned
  refine (firstOperand_pairs lawful inner aligned).bind_both fun first first' p q same aligned => ?_
  rw [Parse.get_bind_apply, Parse.get_bind_apply]
  exact chainWithin_pairs lawful inner (lawful.budget aligned) same rfl same.span aligned

omit inner in
/-- Aligned parsers read the same expressions. -/
theorem expression_pairs (room : Nat) :
    P.PairsExpressions (Parse.expression room) (Parse.expression room) := by
  induction room with
  | zero =>
    intro p q aligned
    exact Ends.failHere lawful aligned
  | succ room ih => exact expressionBody_pairs lawful ih

end Pairing
end ScriptEngine
