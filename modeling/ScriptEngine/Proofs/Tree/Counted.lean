import ScriptEngine.Proofs.Tree.StatementPairing

/-!
# A parser that counts its levels

`Parse.statement` and `Parse.expression` are told how much room is left below them.  The parser of
this file is told nothing: it has a counter, goes one level deeper for every statement and every
expression that it enters, takes the level back when it comes out, and refuses to enter one when the
counter has reached a limit, if there is a limit.  It also keeps a list of what it has entered, which
nothing shortens.

With a limit it is the parser that is told its room, and it leaves the counter as it was
(`statement_counted`, `topLevel_counted`).
-/

namespace ScriptEngine

open TokenStream

/-- A statement or an expression that was entered, or was to be entered. -/
structure Entry where
  level : Nat
  /-- Where the next token started. -/
  position : Nat
  line : Nat
deriving DecidableEq, Repr

/-- A token stream, how many levels deep the parser is, and what it has entered so far, the latest
first. -/
structure Counted (τ : Type) where
  tokens : τ
  depth : Nat := 0
  entries : List Entry := []

variable {τ α : Type} [TokenStream τ]

instance : TokenStream (Counted τ) where
  next c s := ((next c s.tokens).1, { s with tokens := (next c s.tokens).2 })
  pushBack t s := { s with tokens := pushBack t s.tokens }
  restore before now := { now with tokens := restore before.tokens now.tokens }
  position s := position s.tokens
  line s := line s.tokens
  remaining s := remaining s.tokens

namespace Counted

variable {c : TokenContext} {s s' : Counted τ} {t : Token}

lemma next_eq (c : TokenContext) (s : Counted τ) :
    next c s = ((next c s.tokens).1, { s with tokens := (next c s.tokens).2 }) := rfl

lemma next_of_next {result : Except ScriptError Token} {tokens : τ}
    (read : next c s.tokens = (result, tokens)) : next c s = (result, { s with tokens }) := by
  rw [next_eq, read]

/-- Counting changes nothing about what is read. -/
lemma next_eq_ok : next c s = (.ok t, s') ↔
    ∃ tokens, next c s.tokens = (.ok t, tokens) ∧ s' = { s with tokens } := by
  constructor
  · intro h
    obtain ⟨read, rfl⟩ := Prod.ext_iff.1 h
    exact ⟨_, Prod.ext read rfl, rfl⟩
  · rintro ⟨tokens, read, rfl⟩
    exact next_of_next read

instance [LawfulTokenStream τ] : LawfulTokenStream (Counted τ) where
  next_pushBack {c c' s s' t} h := by
    obtain ⟨tokens, read, rfl⟩ := next_eq_ok.1 h
    exact next_of_next (next_pushBack read)
  remaining_next {c s s' t} h proper := by
    obtain ⟨tokens, read, rfl⟩ := next_eq_ok.1 h
    exact LawfulTokenStream.remaining_next (τ := τ) read proper
  restore_self s :=
    congrArg (fun tokens => (⟨tokens, s.depth, s.entries⟩ : Counted τ)) (restore_self s.tokens)
  restore_next c s now :=
    congrArg (fun tokens => (⟨tokens, now.depth, now.entries⟩ : Counted τ))
      (restore_next c s.tokens now.tokens)

end Counted

namespace Parser

omit [TokenStream τ] in
/-- A parser whose counter stands at `depth` and that has entered `entries`. -/
def counted (depth : Nat) (entries : List Entry) (p : Parser τ) : Parser (Counted τ) :=
  ⟨⟨p.tokens, depth, entries⟩, p.attempts⟩

omit [TokenStream τ] in
/-- The parser without its counter. -/
def plain (p : Parser (Counted τ)) : Parser τ :=
  ⟨p.tokens.tokens, p.attempts⟩

/-- What is entered next. -/
def entry (p : Parser (Counted τ)) : Entry :=
  ⟨p.tokens.depth + 1, TokenStream.position p.tokens, TokenStream.line p.tokens⟩

/-- One level deeper. -/
def enter (p : Parser (Counted τ)) : Parser (Counted τ) :=
  { p with tokens := { p.tokens with
      depth := p.tokens.depth + 1
      entries := p.entry :: p.tokens.entries } }

omit [TokenStream τ] in
/-- Back out of a level. -/
def leave (p : Parser (Counted τ)) : Parser (Counted τ) :=
  { p with tokens := { p.tokens with depth := p.tokens.depth - 1 } }

end Parser

/-- Nothing deeper can be entered. -/
def Entry.refused (e : Entry) : ScriptError :=
  ⟨.grammar .tooDeep, .single e.position e.line⟩

namespace Parse

omit [TokenStream τ] in
/-- The result of a step one level deeper, on the way out. -/
def leaving :
    EStateM.Result ScriptError (Parser (Counted τ)) α →
      EStateM.Result ScriptError (Parser (Counted τ)) α
  | .ok a p => .ok a p.leave
  | .error e p => .error e p.leave

/-- Takes a step one level deeper, unless the counter has reached the limit. -/
def nested (limit : Option Nat) (x : Parse (Counted τ) α) : Parse (Counted τ) α := fun p =>
  if limit.any (· ≤ p.tokens.depth) then .error p.entry.refused p else leaving (x p.enter)

/-- Reads an expression, counting levels.  The fuel bounds the recursion. -/
def countedExpression (limit : Option Nat) : (fuel : Nat) → Parse (Counted τ) Expr
  | 0 => failHere .tooDeep
  | fuel + 1 => nested limit (expressionBody (countedExpression limit fuel))

/-- Reads a statement, counting levels. -/
def countedStatement (limit : Option Nat) : (fuel : Nat) → Parse (Counted τ) Stmt
  | 0 => failHere .tooDeep
  | fuel + 1 =>
    nested limit (statementBody (countedStatement limit fuel) (countedExpression limit fuel))

/-- Reads the next top-level statement, or nothing at the end of the input, counting levels. -/
def countedTopLevel (limit : Option Nat) (fuel : Nat) : Parse (Counted τ) (Option Stmt) := do
  let token ← skipNewlines .statement
  if token.kind = .endOfInput then
    return none
  else
    pushBack token
    return some (← countedStatement limit fuel)

omit [TokenStream τ] in
/-- The parser in which a step ends, whether it succeeds or fails. -/
def endOf : EStateM.Result ScriptError (Parser τ) α → Parser τ
  | .ok _ p => p
  | .error _ p => p

omit [TokenStream τ] in
/-- The same result of a parser without a counter. -/
def withoutCounter :
    EStateM.Result ScriptError (Parser (Counted τ)) α → EStateM.Result ScriptError (Parser τ) α
  | .ok a p => .ok a p.plain
  | .error e p => .error e p.plain

omit [TokenStream τ] in
lemma endOf_leaving (r : EStateM.Result ScriptError (Parser (Counted τ)) α) :
    endOf (leaving r) = (endOf r).leave := by
  cases r <;> rfl

section

variable {x : Parse (Counted τ) α} {p p' : Parser (Counted τ)} {limit : Option Nat}

lemma nested_refused {k : Nat} (full : k ≤ p.tokens.depth) :
    nested (some k) x p = .error p.entry.refused p := by
  simp [nested, full]

lemma nested_entered (room : ∀ k ∈ limit, p.tokens.depth < k) :
    nested limit x p = leaving (x p.enter) := by
  cases limit with
  | none => rfl
  | some k => simp [nested, Nat.not_le.2 (room k rfl)]

end

end Parse

/-! ## Beside the parser that is told its room -/

namespace Pairing

/-- A parser, and the same parser with a counter that stands at `depth`. -/
def counting (depth : Nat) : Pairing τ (Counted τ) where
  aligned p q := ∃ entries, q = p.counted depth entries
  past _ _ := False
  strict := True
  stallsAlike := True
  left := id
  right := id

lemma counting_lawful (depth : Nat) : (counting (τ := τ) depth).Lawful where
  next {p q} c aligned := by
    obtain ⟨entries, rfl⟩ := aligned
    refine .next (fun t s read => ?_) fun e s read _ => ?_
    · exact ⟨t, _, Counted.next_of_next read, ⟨entries, rfl⟩,
        .inl ⟨⟨rfl, rfl, rfl⟩, entries, rfl⟩⟩
    · exact ⟨e, _, Counted.next_of_next read, ⟨rfl, rfl⟩, entries, rfl⟩
  attempt {p q} aligned := by
    obtain ⟨entries, rfl⟩ := aligned
    exact ⟨fun _ stalled => stalled, fun moving => ⟨moving, entries, rfl⟩⟩
  here _ aligned := by
    obtain ⟨entries, rfl⟩ := aligned
    rfl
  budget aligned := by
    obtain ⟨entries, rfl⟩ := aligned
    exact ⟨Nat.le_refl _, fun _ => rfl⟩
  past_lax past := past.elim
  past_end past := past.elim
  spans := compatible_id

variable {β : Type} {same : α → β → Prop} {x : Parse τ α} {y : Parse (Counted τ) β} {p : Parser τ}
  {q : Parser (Counted τ)} {limit depth : Nat}

/-- One level deeper the counter stands one higher, and it comes back. -/
lemma nested_pairs (room : depth < limit)
    (inner : ∀ p q, (counting (τ := τ) (depth + 1)).aligned p q →
      (counting (depth + 1)).Ends ((counting (depth + 1)).Through same) (x p) (y q))
    (aligned : (counting depth).aligned p q) :
    (counting depth).Ends ((counting depth).Both same) (x p) (Parse.nested (some limit) y q) := by
  obtain ⟨entries, rfl⟩ := aligned
  have entered := inner p (p.counted depth entries).enter ⟨_, rfl⟩
  rw [Parse.nested_entered (by rintro _ ⟨⟩; exact room)]
  cases run : x p with
  | ok a p' =>
    rw [run] at entered
    obtain ⟨b, q', run', holds, ⟨entries', rfl⟩ | past⟩ := entered
    · rw [run']
      exact ⟨b, _, rfl, holds, entries', rfl⟩
    · exact past.elim
  | error e p' =>
    rw [run] at entered
    obtain ⟨e', q', run', error_same, entries', rfl⟩ := entered ⟨trivial, fun _ => trivial⟩
    rw [run']
    exact fun _ => ⟨e', _, rfl, ⟨error_same.fault, error_same.span⟩, entries', rfl⟩

/-- At the limit neither parser goes deeper. -/
lemma full_pairs {post : α → β → Parser τ → Parser (Counted τ) → Prop}
    (aligned : (counting limit).aligned p q) :
    (counting limit).Ends post ((Parse.failHere .tooDeep : Parse τ α) p)
      (Parse.nested (some limit) y q) := by
  obtain ⟨entries, rfl⟩ := aligned
  rw [Parse.nested_refused (Nat.le_refl limit)]
  exact fun _ => ⟨_, _, rfl, ⟨rfl, rfl⟩, entries, rfl⟩

lemma expression_counting {room fuel : Nat} (filled : depth + room = limit)
    (enough : room < fuel) :
    (counting (τ := τ) depth).PairsExpressions (Parse.expression room)
      (Parse.countedExpression (some limit) fuel) := by
  induction room generalizing depth fuel with
  | zero =>
    obtain ⟨fuel, rfl⟩ := Nat.exists_eq_succ_of_ne_zero (Nat.ne_zero_of_lt enough)
    obtain rfl : depth = limit := filled
    exact fun p q aligned => full_pairs aligned
  | succ room ih =>
    obtain ⟨fuel, rfl⟩ := Nat.exists_eq_succ_of_ne_zero (Nat.ne_zero_of_lt enough)
    have deeper : (counting (τ := τ) (depth + 1)).PairsExpressions (Parse.expression room)
        (Parse.countedExpression (some limit) fuel) := ih (by omega) (by omega)
    have body := expressionBody_pairs (counting_lawful (depth + 1)) deeper
    intro p q aligned
    refine nested_pairs (by omega) (fun p q aligned => ?_) aligned
    exact (body p q aligned).mono fun _ _ _ _ both => ⟨both.1, .inl both.2⟩

lemma statement_counting [LawfulTokenStream τ] {room fuel : Nat} (filled : depth + room = limit)
    (enough : room < fuel) :
    (counting (τ := τ) depth).PairsStatements (Parse.statement room)
      (Parse.countedStatement (some limit) fuel) := by
  induction room generalizing depth fuel with
  | zero =>
    obtain ⟨fuel, rfl⟩ := Nat.exists_eq_succ_of_ne_zero (Nat.ne_zero_of_lt enough)
    obtain rfl : depth = limit := filled
    exact fun p q aligned => .of_ends (full_pairs aligned)
  | succ room ih =>
    obtain ⟨fuel, rfl⟩ := Nat.exists_eq_succ_of_ne_zero (Nat.ne_zero_of_lt enough)
    have deeper : (counting (τ := τ) (depth + 1)).PairsStatements (Parse.statement room)
        (Parse.countedStatement (some limit) fuel) := ih (by omega) (by omega)
    have expressions : (counting (τ := τ) (depth + 1)).PairsExpressions (Parse.expression room)
        (Parse.countedExpression (some limit) fuel) :=
      expression_counting (by omega) (by omega)
    have lawful := counting_lawful (τ := τ) (depth + 1)
    have body := statementBody_pairs lawful deeper expressions
    intro p q aligned
    refine .of_ends ((nested_pairs (by omega) (fun p q aligned => ?_) aligned).mono
      fun _ _ _ _ both => ⟨both.1, .inl both.2⟩)
    exact body.ends (lawful.settles trivial) aligned

lemma topLevel_counting [LawfulTokenStream τ] {room fuel : Nat} (filled : depth + room = limit)
    (enough : room < fuel) (aligned : (counting depth).aligned p q) :
    (counting depth).Ends ((counting depth).Both (counting (τ := τ) depth).SameBranch)
      (Parse.topLevel room p) (Parse.countedTopLevel (some limit) fuel q) := by
  have lawful := counting_lawful (τ := τ) depth
  have settles := lawful.settles trivial
  have skips := (skipNewlines_pairs lawful aligned).ends fun _ _ _ => .inl settles
  refine skips.bind fun t u p q skipped => ?_
  obtain ⟨token, aligned, read⟩ := skipped.resolve_right fun h => h.1 trivial
  rw [← token.kind]
  split
  · exact .pure ⟨rfl, aligned⟩
  · refine (pushBack_pairs read).bind_both fun _ _ p q _ aligned => ?_
    refine ((statement_counting filled enough).ends settles aligned).bind_through
      fun s s' p q same placed => ?_
    exact .pure ⟨congrArg some same, placed.resolve_right fun past => past⟩

omit [TokenStream τ] in
/-- What corresponds to the result of the parser that is told its room is that result, and the counter
is back where it was. -/
lemma Ends.plain {same : α → α → Prop} {r : EStateM.Result ScriptError (Parser τ) α}
    {r' : EStateM.Result ScriptError (Parser (Counted τ)) α}
    (eq : ∀ a b, same a b → a = b) (ends : (counting depth).Ends ((counting depth).Both same) r r') :
    Parse.withoutCounter r' = r ∧ (Parse.endOf r').tokens.depth = depth := by
  cases r with
  | ok a p =>
    obtain ⟨b, q, rfl, holds, entries, rfl⟩ := ends
    obtain rfl := eq a b holds
    exact ⟨rfl, rfl⟩
  | error e p =>
    obtain ⟨e', q, rfl, error_same, entries, rfl⟩ := ends ⟨trivial, fun _ => trivial⟩
    obtain rfl : e = e' := ScriptError.ext error_same.fault error_same.span
    exact ⟨rfl, rfl⟩

end Pairing

namespace Parse

variable {limit depth room fuel : Nat}

/-- With a limit, the parser that counts is the parser that is told its room. -/
theorem expression_counted (filled : depth + room = limit) (enough : room < fuel)
    {q : Parser (Counted τ)} (here : q.tokens.depth = depth) :
    withoutCounter (countedExpression (some limit) fuel q) = expression room q.plain ∧
      (endOf (countedExpression (some limit) fuel q)).tokens.depth = depth := by
  refine (Pairing.expression_counting filled enough q.plain q ⟨q.tokens.entries, ?_⟩).plain ?_
  · rw [← here]
    rfl
  · intro a b same
    rwa [Pairing.SameExpr, Pairing.counting, Expr.mapSpan_id, Expr.mapSpan_id] at same

lemma topLevel_counted [LawfulTokenStream τ] (filled : depth + room = limit)
    (enough : room < fuel) {q : Parser (Counted τ)} (here : q.tokens.depth = depth) :
    withoutCounter (countedTopLevel (some limit) fuel q) = topLevel room q.plain ∧
      (endOf (countedTopLevel (some limit) fuel q)).tokens.depth = depth := by
  refine (Pairing.topLevel_counting (p := q.plain) filled enough ⟨q.tokens.entries, ?_⟩).plain ?_
  · rw [← here]
    rfl
  · intro a b same
    rwa [Pairing.SameBranch, Pairing.counting, Stmt.mapBranchSpan_id, Stmt.mapBranchSpan_id] at same

end Parse
end ScriptEngine
