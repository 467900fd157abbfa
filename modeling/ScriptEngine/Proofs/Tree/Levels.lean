import ScriptEngine.Proofs.Tree.Counted
import ScriptEngine.Proofs.Tree.ExpressionGrammar

/-!
# How deep a parser goes

The level of a tree counts the statements and expressions that lie inside one another
(`Stmt.level`, `Expr.depth`).  A parser that counts (`Counted`) enters one level for each, so the
deepest level that it has entered is the level of the tree that it returns.

Beside it runs the same parser with a limit.  As long as nothing beyond the limit is entered the two
are the same, and the one with a limit fails in front of the first statement or expression beyond it
(`Follows`).  `Follows` is closed under putting steps one behind the other, so there is one lemma for
each function of the parser, given readers of what is one level deeper.
-/

namespace ScriptEngine

/-! ## Levels of trees -/

/-- The depth of an expression that may be missing. -/
def Expr.optionDepth : Option Expr → Nat
  | none => 0
  | some e => e.depth

/-- The depth of the deepest initializer. -/
def Declarator.depths : List Declarator → Nat
  | [] => 0
  | d :: rest => max (Expr.optionDepth d.initializer) (depths rest)

namespace Stmt

mutual

/-- How many statements and expressions lie inside one another, the whole statement included. -/
def level : Stmt → Nat
  | .empty _ => 1
  | .expression expr _ => expr.depth + 1
  | .block statements _ => levels statements + 1
  | .choice condition thenBranch elseBranch _ =>
    max condition.depth (max (level thenBranch) (branchLevel elseBranch)) + 1
  | .loop start condition increment body _ =>
    max (startLevel start)
      (max (Expr.optionDepth condition) (max (Expr.optionDepth increment) (level body))) + 1
  | .declare declarators _ => Declarator.depths declarators + 1
  | .giveBack value _ => Expr.optionDepth value + 1

/-- The level of the deepest of some statements. -/
def levels : List Stmt → Nat
  | [] => 0
  | s :: rest => max (level s) (levels rest)

def branchLevel : Option Stmt → Nat
  | none => 0
  | some s => level s

/-- The level of what stands in front of a loop.  A declaration or an expression is read there
without a statement around it. -/
def startLevel : Option Stmt → Nat
  | none => 0
  | some (.declare declarators _) => Declarator.depths declarators
  | some (.expression e _) => e.depth
  | some s => level s

end

lemma levels_append (xs ys : List Stmt) : levels (xs ++ ys) = max (levels xs) (levels ys) := by
  induction xs with
  | nil => simp [levels]
  | cons s xs ih => simp [levels, ih, Nat.max_assoc]

end Stmt

namespace Expr

lemma linksDepth_append (xs ys : List (Operator × Expr)) :
    linksDepth (xs ++ ys) = max (linksDepth xs) (linksDepth ys) := by
  induction xs with
  | nil => simp [linksDepth]
  | cons link xs ih => simp [linksDepth, ih, Nat.max_assoc]

lemma innerDepth_join (first : Expr) (rest : List (Operator × Expr)) (last : Span) :
    (join first rest last).innerDepth = max first.innerDepth (linksDepth rest) := by
  cases rest with
  | nil => simp [join, linksDepth]
  | cons link rest => simp [join, innerDepth]

end Expr

/-! ## Entries -/

namespace Entry

/-- The deepest level that was entered, starting from `depth`. -/
def deepest (depth : Nat) : List Entry → Nat
  | [] => depth
  | e :: rest => max e.level (deepest depth rest)

/-- The first entry beyond a limit.  The latest entry stands first. -/
def firstBeyond (limit : Nat) (entries : List Entry) : Option Entry :=
  entries.reverse.find? (limit < ·.level)

variable {limit depth : Nat} {entries earlier later : List Entry}

lemma le_deepest : depth ≤ deepest depth entries := by
  induction entries with
  | nil => exact Nat.le_refl depth
  | cons e rest ih => exact ih.trans (Nat.le_max_right _ _)

lemma deepest_append :
    deepest depth (later ++ earlier) = max (deepest depth later) (deepest depth earlier) := by
  induction later with
  | nil => simp [deepest, Nat.max_eq_right le_deepest]
  | cons e later ih => simp [deepest, ih, Nat.max_assoc]

/-- The deepest level seen from one level further up, from where the first entry was made. -/
lemma deepest_enter {e : Entry} (here : e.level = depth + 1) :
    deepest depth (entries ++ [e]) = deepest (depth + 1) entries := by
  induction entries with
  | nil => simp [deepest, here]
  | cons e' entries ih => simp [deepest, ih]

lemma deepest_le_iff : deepest depth entries ≤ limit ↔
    depth ≤ limit ∧ ∀ e ∈ entries, e.level ≤ limit := by
  induction entries with
  | nil => simp [deepest]
  | cons e rest ih => simp [deepest, ih, and_left_comm]

lemma firstBeyond_append : firstBeyond limit (later ++ earlier) =
    (firstBeyond limit earlier).or (firstBeyond limit later) := by
  simp [firstBeyond, List.find?_append]

lemma firstBeyond_eq_none : firstBeyond limit entries = none ↔
    ∀ e ∈ entries, e.level ≤ limit := by
  simp [firstBeyond]

end Entry

/-! ## Steps side by side -/

open TokenStream

namespace Parse

variable {τ α β : Type} {limit depth : Nat}

/-- What a run without a limit has entered from `p` on, and how the run with a limit compares. -/
structure Compares (limit depth : Nat) (reaches : α → Nat → Prop) (p : Parser (Counted τ))
    (free limited : EStateM.Result ScriptError (Parser (Counted τ)) α) (entered : List Entry) :
    Prop where
  entries : (endOf free).tokens.entries = entered ++ p.tokens.entries
  back : (endOf free).tokens.depth = depth
  /-- How many levels down a successful run has been. -/
  reached : ∀ a p', free = .ok a p' →
    ∃ n, Entry.deepest depth entered = depth + n ∧ reaches a n
  same : Entry.firstBeyond limit entered = none → limited = free
  stopped : ∀ e, Entry.firstBeyond limit entered = some e →
    e.level = max limit depth + 1 ∧ ∃ q, limited = .error e.refused q ∧ q.tokens.depth = depth

/-- From `depth` levels down, the second step does what the first does until something beyond the
limit would be entered, and both come back to where they were.  A value of the first is found `n`
levels down if `reaches` says so. -/
def Follows (limit depth : Nat) (free limited : Parse (Counted τ) α)
    (reaches : α → Nat → Prop) : Prop :=
  ∀ p : Parser (Counted τ), p.tokens.depth = depth →
    ∃ entered, Compares limit depth reaches p (free p) (limited p) entered

/-- A step that enters nothing, and is the same with a limit and without. -/
def Flat (x : Parse (Counted τ) α) : Prop :=
  ∀ p, (endOf (x p)).tokens.depth = p.tokens.depth ∧
    (endOf (x p)).tokens.entries = p.tokens.entries

namespace Flat

lemma pure (a : α) : Flat (pure a : Parse (Counted τ) α) := fun _ => ⟨rfl, rfl⟩

lemma bind {x : Parse (Counted τ) α} {f : α → Parse (Counted τ) β} (first : Flat x)
    (rest : ∀ a, Flat (f a)) : Flat (x >>= f) := by
  intro p
  have here := first p
  cases run : x p with
  | ok a p₁ =>
    rw [run] at here
    rw [bind_of_ok run]
    exact ⟨(rest a p₁).1.trans here.1, (rest a p₁).2.trans here.2⟩
  | error e p₁ =>
    rw [run] at here
    rw [bind_of_error run]
    exact here

lemma get_bind {f : Parser (Counted τ) → Parse (Counted τ) α} (rest : ∀ p, Flat (f p)) :
    Flat (get >>= f) := fun p => rest p p

lemma fail (span : Span) (fault : GrammarFault) :
    Flat (fail span fault : Parse (Counted τ) α) := fun _ => ⟨rfl, rfl⟩

variable [TokenStream τ]

lemma failHere (fault : GrammarFault) : Flat (failHere fault : Parse (Counted τ) α) :=
  fun _ => ⟨rfl, rfl⟩

lemma next (c : TokenContext) : Flat (next c : Parse (Counted τ) Token) := by
  intro p
  unfold Parse.next
  rcases read : TokenStream.next c p.tokens with ⟨_ | t, s⟩ <;>
    exact ⟨congrArg (Counted.depth ∘ Prod.snd) read.symm,
      congrArg (Counted.entries ∘ Prod.snd) read.symm⟩

lemma pushBack (t : Token) : Flat (pushBack t : Parse (Counted τ) Unit) := fun _ => ⟨rfl, rfl⟩

lemma restore (before : Counted τ) :
    Flat (modify fun p => { p with tokens := TokenStream.restore before p.tokens } :
      Parse (Counted τ) Unit) := fun _ => ⟨rfl, rfl⟩

lemma peekKind : Flat (peekKind : Parse (Counted τ) TokenKind) :=
  (next _).bind fun t => (pushBack t).bind fun _ => .pure _

lemma expect (place : Place) : Flat (expect place : Parse (Counted τ) Token) := by
  refine (next _).bind fun t => ?_
  split
  · exact .pure t
  · exact .fail _ _

lemma attempt : Flat (attempt : Parse (Counted τ) Unit) := by
  intro p
  unfold Parse.attempt
  rw [get_bind_apply]
  cases Parser.stalledAt (TokenStream.position p.tokens) p.attempts <;> exact ⟨rfl, rfl⟩

lemma skipNewlinesWithin (c : TokenContext) (budget : Nat) :
    Flat (skipNewlinesWithin c budget : Parse (Counted τ) Token) := by
  induction budget with
  | zero => exact .failHere _
  | succ budget ih =>
    refine (next c).bind fun t => ?_
    split
    · exact ih
    · exact .pure t

lemma skipNewlines (c : TokenContext) : Flat (skipNewlines c : Parse (Counted τ) Token) :=
  .get_bind fun p => skipNewlinesWithin c p.budget

lemma terminator (after : Terminated) : Flat (terminator after : Parse (Counted τ) Unit) := by
  refine (next _).bind fun t => ?_
  split
  · exact .pure ()
  · exact .pure ()
  · exact pushBack t
  · exact pushBack t
  · exact .fail _ _

end Flat

namespace Follows

variable {reaches : α → Nat → Prop} {reaches' : β → Nat → Prop} {x y : Parse (Counted τ) α}
  {f g : α → Parse (Counted τ) β}

/-- A step that enters nothing follows itself. -/
lemma of_flat (flat : Flat x) : Follows limit depth x x fun _ n => n = 0 := by
  intro p here
  refine ⟨[], ?_, (flat p).1.trans here, fun a p' run => ⟨0, rfl, rfl⟩, fun _ => rfl, ?_⟩
  · simpa using (flat p).2
  · simp [Entry.firstBeyond]

lemma bind (first : Follows limit depth x y reaches)
    (rest : ∀ a n, reaches a n → Follows limit depth (f a) (g a) fun b m => reaches' b (max n m)) :
    Follows limit depth (x >>= f) (y >>= g) reaches' := by
  intro p here
  obtain ⟨earlier, done⟩ := first p here
  cases run : x p with
  | error e p₁ =>
    rw [run] at done
    refine ⟨earlier, ?_⟩
    rw [bind_of_error run]
    refine ⟨done.entries, done.back, by simp, fun none_beyond => ?_, fun e beyond => ?_⟩
    · exact bind_of_error (done.same none_beyond) g
    · obtain ⟨level, q, refused, back⟩ := done.stopped e beyond
      exact ⟨level, q, bind_of_error refused g, back⟩
  | ok a p₁ =>
    rw [run] at done
    obtain ⟨n, reached, holds⟩ := done.reached a p₁ rfl
    obtain ⟨later, more⟩ := rest a n holds p₁ done.back
    refine ⟨later ++ earlier, ?_⟩
    rw [bind_of_ok run]
    refine ⟨?_, more.back, fun b p' run' => ?_, fun none_beyond => ?_, fun e beyond => ?_⟩
    · rw [more.entries, show p₁.tokens.entries = _ from done.entries, List.append_assoc]
    · obtain ⟨m, reached', holds'⟩ := more.reached b p' run'
      refine ⟨max n m, ?_, holds'⟩
      rw [Entry.deepest_append, reached, reached']
      omega
    · rw [Entry.firstBeyond_append, Option.or_eq_none_iff] at none_beyond
      rw [bind_of_ok (done.same none_beyond.1)]
      exact more.same none_beyond.2
    · rw [Entry.firstBeyond_append] at beyond
      cases first_part : Entry.firstBeyond limit earlier with
      | some e' =>
        rw [first_part, Option.some_or] at beyond
        obtain rfl := Option.some.inj beyond
        obtain ⟨level, q, refused, back⟩ := done.stopped e' first_part
        exact ⟨level, q, bind_of_error refused g, back⟩
      | none =>
        rw [first_part, Option.none_or] at beyond
        obtain ⟨level, q, refused, back⟩ := more.stopped e beyond
        exact ⟨level, q, (bind_of_ok (done.same first_part) g).trans refused, back⟩

/-- A step that enters nothing in front. -/
lemma after (flat : Flat x) (rest : ∀ a, Follows limit depth (f a) (g a) reaches') :
    Follows limit depth (x >>= f) (x >>= g) reaches' := by
  refine (of_flat flat).bind ?_
  rintro a _ rfl
  simpa using rest a

lemma get_bind {f g : Parser (Counted τ) → Parse (Counted τ) β}
    (rest : ∀ p, Follows limit depth (f p) (g p) reaches') :
    Follows limit depth (get >>= f) (get >>= g) reaches' := fun p => rest p p

lemma pure {a : α} (holds : reaches a 0) :
    Follows limit depth (pure a : Parse (Counted τ) α) (pure a) reaches := by
  intro p here
  refine ⟨[], rfl, here, ?_, fun _ => rfl, by simp [Entry.firstBeyond]⟩
  rintro _ _ ⟨⟩
  exact ⟨0, rfl, holds⟩

lemma fail {span : Span} {fault : GrammarFault} :
    Follows limit depth (fail span fault : Parse (Counted τ) α) (Parse.fail span fault) reaches := by
  intro p here
  exact ⟨[], rfl, here, by simp [fail_apply], fun _ => rfl, by simp [Entry.firstBeyond]⟩

lemma mono {reaches'' : α → Nat → Prop} (follows : Follows limit depth x y reaches)
    (weaker : ∀ a n, reaches a n → reaches'' a n) : Follows limit depth x y reaches'' := by
  intro p here
  obtain ⟨entered, h⟩ := follows p here
  refine ⟨entered, h.entries, h.back, fun a p' run => ?_, h.same, h.stopped⟩
  obtain ⟨n, reached, holds⟩ := h.reached a p' run
  exact ⟨n, reached, weaker a n holds⟩

variable [TokenStream τ]

lemma failHere {fault : GrammarFault} :
    Follows limit depth (failHere fault : Parse (Counted τ) α) (Parse.failHere fault) reaches := by
  intro p here
  exact ⟨[], rfl, here, by simp [failHere_apply], fun _ => rfl, by simp [Entry.firstBeyond]⟩

/-- One level deeper. -/
lemma nested (inner : Follows limit (depth + 1) x y fun a n => reaches a (n + 1)) :
    Follows limit depth (nested none x) (Parse.nested (some limit) y) reaches := by
  intro p here
  obtain ⟨entered, h⟩ := inner p.enter (by simp [Parser.enter, here])
  have level : p.entry.level = depth + 1 := by rw [← here]; rfl
  have run : Parse.nested none x p = leaving (x p.enter) := nested_entered (by simp)
  refine ⟨entered ++ [p.entry], ?_, ?_, fun a p' succeeds => ?_, fun none_beyond => ?_,
    fun e beyond => ?_⟩
  · rw [run, endOf_leaving]
    simpa [Parser.leave, Parser.enter] using h.entries
  · rw [run, endOf_leaving]
    simp [Parser.leave, h.back]
  · rw [run] at succeeds
    cases deep : x p.enter with
    | error e p₁ => simp [deep, leaving] at succeeds
    | ok b p₁ =>
      obtain ⟨rfl, -⟩ : b = a ∧ _ = p' := by simpa [deep, leaving] using succeeds
      obtain ⟨n, reached, holds⟩ := h.reached b p₁ deep
      refine ⟨n + 1, ?_, holds⟩
      rw [Entry.deepest_enter level, reached]
      omega
  · rw [Entry.firstBeyond_append, Option.or_eq_none_iff] at none_beyond
    have below : depth + 1 ≤ limit := by
      simpa [level] using Entry.firstBeyond_eq_none.1 none_beyond.1
    rw [run, nested_entered (by simpa [here] using Nat.lt_of_succ_le below), h.same none_beyond.2]
  -- The first entry beyond the limit is this one, if the limit is reached here, or else one
  -- within.
  · rw [Entry.firstBeyond_append] at beyond
    by_cases full : limit ≤ depth
    · obtain rfl : p.entry = e := by
        simpa [Entry.firstBeyond, level, Nat.lt_succ_of_le full] using beyond
      refine ⟨by omega, p, nested_refused (here ▸ full), here⟩
    · have none_here : Entry.firstBeyond limit [p.entry] = none := by
        simp [Entry.firstBeyond, level]
        omega
      rw [none_here, Option.none_or] at beyond
      obtain ⟨deep, q, refused, back⟩ := h.stopped e beyond
      refine ⟨by omega, q.leave, ?_, by simp [Parser.leave, back]⟩
      rw [nested_entered (by simpa [here] using Nat.not_le.1 full), refused]
      rfl

end Follows

variable [TokenStream τ]

/-! ## Expressions -/

section

variable {free limited : Parse (Counted τ) Expr}
  (inner : Follows limit depth free limited fun e n => n = e.depth)
include inner

lemma argumentsWithin_follows (budget : Nat) (before : List Expr) :
    Follows limit depth (argumentsWithin free budget before)
      (argumentsWithin limited budget before) fun args n =>
        ∃ more, args.1 = before.reverse ++ more ∧ n = Expr.argumentsDepth more := by
  induction budget generalizing before with
  | zero => exact .failHere
  | succ budget ih =>
    refine inner.bind fun e n here => .after (.next _) fun t => ?_
    split
    · refine (ih (e :: before)).mono ?_
      rintro ⟨args, close⟩ m ⟨more, rfl, rfl⟩
      exact ⟨e :: more, by simp, by rw [Expr.argumentsDepth, here]; rfl⟩
    · exact .pure ⟨[e], by simp, by rw [here]; rfl⟩
    · exact .fail

lemma call_follows (callee : Token) :
    Follows limit depth (call free callee) (call limited callee) fun e n => n = e.innerDepth := by
  refine .after (.expect _) fun _ => .after (.next _) fun t => ?_
  split
  · exact .pure rfl
  · refine .after (.pushBack t) fun _ => .get_bind fun p => ?_
    refine (argumentsWithin_follows inner _ []).bind ?_
    rintro ⟨args, close⟩ n ⟨more, rfl, rfl⟩
    exact .pure (by simp [Expr.innerDepth])

lemma named_follows (name : Token) :
    Follows limit depth (named free name) (named limited name) fun e n => n = e.innerDepth := by
  refine .after (.next _) fun t => ?_
  split
  · refine .after .peekKind fun kind => ?_
    split
    · refine inner.bind fun value n here => .pure ?_
      simp [Expr.innerDepth, here, Expr.depth]
    · exact .fail
  · exact .pure rfl
  · exact .pure rfl
  · exact .after (.pushBack t) fun _ => .pure rfl

lemma operand_follows :
    Follows limit depth (operand free) (operand limited) fun e n => n = e.innerDepth := by
  refine .after (.next _) fun t => ?_
  split
  · exact .pure rfl
  · exact named_follows inner t
  · exact call_follows inner t
  · refine inner.bind fun e n here => .after (.expect _) fun close => .pure ?_
    simp [Expr.innerDepth, here, Expr.depth]
  · exact .fail

lemma operandAfter_follows (operator : Token) :
    Follows limit depth (operandAfter free operator) (operandAfter limited operator)
      fun e n => n = e.innerDepth := by
  refine .after .peekKind fun kind => ?_
  split
  · exact operand_follows inner
  · exact .after (.next _) fun t => .fail

lemma rightOperand_follows (op : Operator) (operator : Token) :
    Follows limit depth (rightOperand free op operator) (rightOperand limited op operator)
      fun e n => n = e.innerDepth := by
  rw [rightOperand, rightOperand]
  split
  · refine .after .peekKind fun kind => ?_
    split
    · exact operandAfter_follows inner operator
    · exact .pure rfl
  · exact operandAfter_follows inner operator

lemma chainWithin_follows (first : Expr) (budget : Nat) (before : List (Operator × Expr))
    (last : Span) :
    Follows limit depth (chainWithin free first budget before last)
      (chainWithin limited first budget before last) fun e n =>
        e.innerDepth = max (max first.innerDepth (Expr.linksDepth before.reverse)) n := by
  induction budget generalizing before last with
  | zero => exact .failHere
  | succ budget ih =>
    refine .after (.next _) fun t => ?_
    split
    · next op _ =>
      split
      · refine .after .peekKind fun kind => ?_
        split
        · refine inner.bind fun right n here => .pure ?_
          simp [Expr.innerDepth, Expr.innerDepth_join, here, Expr.depth]
        · exact .fail
      · refine (rightOperand_follows inner op t).bind fun right n here => ?_
        refine (ih ((op, right) :: before) right.span).mono fun e m reached => ?_
        rw [reached, List.reverse_cons, Expr.linksDepth_append, here]
        simp [Expr.linksDepth, Nat.max_assoc]
    · refine .after (.pushBack t) fun _ => .pure ?_
      rw [Expr.innerDepth_join, Nat.max_zero]

lemma firstOperand_follows :
    Follows limit depth (firstOperand free) (firstOperand limited) fun e n => n = e.innerDepth := by
  refine .after (.next _) fun t => .after (.pushBack t) fun _ => ?_
  split
  · exact .pure rfl
  · exact operand_follows inner

lemma expressionBody_follows :
    Follows limit depth (expressionBody free) (expressionBody limited)
      fun e n => n + 1 = e.depth := by
  refine (firstOperand_follows inner).bind fun first n here => .get_bind fun p => ?_
  refine (chainWithin_follows inner first _ [] first.span).mono fun e m reached => ?_
  rw [Expr.depth, reached, here]
  simp [Expr.linksDepth]

end

/-- Where the counter has reached the limit, running out of fuel is being refused. -/
lemma Follows.refused {x y : Parse (Counted τ) α} {reaches : α → Nat → Prop}
    (full : limit ≤ depth) (follows : Follows limit depth x (Parse.nested (some limit) y) reaches) :
    Follows limit depth x (Parse.failHere .tooDeep) reaches := by
  intro p here
  obtain ⟨entered, h⟩ := follows p here
  rw [nested_refused (here ▸ full)] at h
  exact ⟨entered, h⟩

/-- Fuel that reaches to the limit is enough for the parser with a limit. -/
lemma countedExpression_follows {fuel fuel' : Nat} (enough : limit < depth + fuel)
    (le : fuel ≤ fuel') :
    Follows limit depth (countedExpression (τ := τ) none fuel')
      (countedExpression (some limit) fuel) fun e n => n = e.depth := by
  induction fuel' generalizing fuel depth with
  | zero =>
    obtain rfl := Nat.le_zero.1 le
    exact .failHere
  | succ fuel' ih =>
    cases fuel with
    | zero =>
      have deeper : Follows limit (depth + 1) (countedExpression (τ := τ) none fuel')
          (countedExpression (some limit) 0) _ := ih (by omega) (Nat.zero_le _)
      exact .refused (by omega) (.nested (expressionBody_follows deeper))
    | succ fuel => exact .nested (expressionBody_follows (ih (by omega) (by omega)))

/-! ## Statements -/

section

variable {free limited : Parse (Counted τ) Expr} {freely limitedly : Parse (Counted τ) Stmt}
  (expressions : Follows limit depth free limited fun e n => n = e.depth)
  (statements : Follows limit depth freely limitedly fun s n => n = s.level)

section
include expressions

lemma declarator_follows :
    Follows limit depth (declarator free) (declarator limited)
      fun d n => n = Expr.optionDepth d.initializer := by
  refine .after (.next _) fun name => ?_
  split
  · refine .after (.next _) fun t => ?_
    split
    · refine expressions.bind fun e n here => .pure ?_
      rw [Nat.max_zero]
      exact here
    · exact .after (.pushBack t) fun _ => .pure rfl
  · exact .fail

lemma declaratorsWithin_follows (budget : Nat) (before : List Declarator) :
    Follows limit depth (declaratorsWithin free budget before)
      (declaratorsWithin limited budget before) fun ds n =>
        ∃ more, ds = before.reverse ++ more ∧ n = Declarator.depths more := by
  induction budget generalizing before with
  | zero => exact .failHere
  | succ budget ih =>
    refine (declarator_follows expressions).bind fun d n here => .after (.next _) fun t => ?_
    split
    · refine (ih (d :: before)).mono ?_
      rintro _ m ⟨more, rfl, rfl⟩
      exact ⟨d :: more, by simp, by rw [Declarator.depths, here]⟩
    · refine .after (.pushBack t) fun _ => .pure ⟨[d], by simp, ?_⟩
      rw [here]
      rfl

lemma declaration_follows (start : Span) :
    Follows limit depth (declaration free start) (declaration limited start)
      fun ds n => n = Declarator.depths ds.1 := by
  refine .get_bind fun p => (declaratorsWithin_follows expressions _ []).bind ?_
  rintro _ n ⟨more, rfl, rfl⟩
  exact .pure (by simp)

lemma loopStart_follows :
    Follows limit depth (loopStart free) (loopStart limited)
      fun start n => n = Stmt.startLevel start := by
  refine .after (.next _) fun t => ?_
  split
  · exact .after (.pushBack t) fun _ => .pure rfl
  · refine (declaration_follows expressions t.span).bind ?_
    rintro ⟨ds, span⟩ n rfl
    exact .pure (Nat.max_zero _)
  · refine .after (.pushBack t) fun _ => expressions.bind fun e n here => .pure ?_
    rw [Nat.max_zero]
    exact here

lemma optionalExpression_follows (closer : TokenKind) :
    Follows limit depth (optionalExpression free closer) (optionalExpression limited closer)
      fun e n => n = Expr.optionDepth e := by
  refine .after .peekKind fun kind => ?_
  split
  · exact .pure rfl
  · refine expressions.bind fun e n here => .pure ?_
    rw [Nat.max_zero]
    exact here

lemma giveBack_follows (start : Span) :
    Follows limit depth (giveBack free start) (giveBack limited start)
      fun s n => n + 1 = s.level := by
  refine .after .peekKind fun kind => ?_
  split
  · exact .after (.terminator _) fun _ => .pure rfl
  · refine expressions.bind fun e n here => .after (.terminator _) fun _ => .pure ?_
    rw [Nat.max_zero, here]
    rfl

lemma expressionStatement_follows :
    Follows limit depth (expressionStatement free) (expressionStatement limited)
      fun s n => n + 1 = s.level := by
  refine expressions.bind fun e n here => .after (.terminator _) fun _ => .pure ?_
  rw [Nat.max_zero, here]
  rfl

end

section
include statements

lemma blockWithin_follows (start : Span) (budget : Nat) (before : List Stmt) :
    Follows limit depth (blockWithin freely start budget before)
      (blockWithin limitedly start budget before) fun s n =>
        s.level = max (Stmt.levels before.reverse) n + 1 := by
  induction budget generalizing before with
  | zero => exact .failHere
  | succ budget ih =>
    refine .after (.skipNewlines _) fun t => ?_
    split
    · exact .pure (by simp [Stmt.level])
    · exact .fail
    · refine .after (.pushBack t) fun _ => statements.bind fun one n here => ?_
      refine (ih (one :: before)).mono fun s m reached => ?_
      rw [reached, List.reverse_cons, Stmt.levels_append, here]
      simp [Stmt.levels, Nat.max_assoc]

lemma elseBranch_follows :
    Follows limit depth (elseBranch freely) (elseBranch limitedly)
      fun other n => n = Stmt.branchLevel other := by
  refine .get_bind fun before => .after (.skipNewlines _) fun t => ?_
  split
  · refine statements.bind fun s n here => .pure ?_
    rw [Nat.max_zero]
    exact here
  · exact .after (.restore _) fun _ => .pure rfl

end

include expressions statements

lemma choice_follows (start : Span) :
    Follows limit depth (choice freely free start) (choice limitedly limited start)
      fun s n => n + 1 = s.level := by
  refine .after (.expect _) fun _ => expressions.bind fun condition n tests => ?_
  refine .after (.expect _) fun _ => statements.bind fun branch m here => ?_
  refine (elseBranch_follows statements).bind fun other k otherwise => ?_
  cases other with
  | none => exact .pure (by simp [Stmt.level, tests, here, otherwise])
  | some other => exact .pure (by simp [Stmt.level, tests, here, otherwise])

lemma loop_follows (start : Span) :
    Follows limit depth (loop freely free start) (loop limitedly limited start)
      fun s n => n + 1 = s.level := by
  refine .after (.expect _) fun _ => (loopStart_follows expressions).bind fun first n starts => ?_
  refine .after (.expect _) fun _ => ?_
  refine (optionalExpression_follows expressions _).bind fun condition m tests => ?_
  refine .after (.expect _) fun _ => ?_
  refine (optionalExpression_follows expressions _).bind fun increment k steps => ?_
  refine .after (.expect _) fun _ => statements.bind fun body j here => .pure ?_
  simp [Stmt.level, starts, tests, steps, here]

lemma statementBody_follows :
    Follows limit depth (statementBody freely free) (statementBody limitedly limited)
      fun s n => n + 1 = s.level := by
  refine .after .attempt fun _ => .after (.skipNewlines _) fun t => ?_
  split
  · exact .pure rfl
  · refine .get_bind fun p => (blockWithin_follows statements t.span _ []).mono fun s n reached => ?_
    simpa [Stmt.levels] using reached.symm
  · exact choice_follows expressions statements t.span
  · exact loop_follows expressions statements t.span
  · refine (declaration_follows expressions t.span).bind ?_
    rintro ⟨ds, span⟩ n rfl
    exact .after (.terminator _) fun _ => .pure (by simp [Stmt.level])
  · exact giveBack_follows expressions t.span
  · exact .after (.pushBack t) fun _ => .pure rfl
  · exact .after (.pushBack t) fun _ => .pure rfl
  · exact .after (.pushBack t) fun _ => .pure rfl
  · exact .fail
  · exact .fail
  · exact .after (.pushBack t) fun _ => expressionStatement_follows expressions

end

lemma countedStatement_follows {fuel fuel' : Nat} (enough : limit < depth + fuel)
    (le : fuel ≤ fuel') :
    Follows limit depth (countedStatement (τ := τ) none fuel')
      (countedStatement (some limit) fuel) fun s n => n = s.level := by
  induction fuel' generalizing fuel depth with
  | zero =>
    obtain rfl := Nat.le_zero.1 le
    exact .failHere
  | succ fuel' ih =>
    cases fuel with
    | zero =>
      have expressions : Follows limit (depth + 1) (countedExpression (τ := τ) none fuel')
          (countedExpression (some limit) 0) _ :=
        countedExpression_follows (by omega) (Nat.zero_le _)
      have deeper : Follows limit (depth + 1) (countedStatement (τ := τ) none fuel')
          (countedStatement (some limit) 0) _ := ih (by omega) (Nat.zero_le _)
      exact .refused (by omega) (.nested (statementBody_follows expressions deeper))
    | succ fuel =>
      exact .nested (statementBody_follows (countedExpression_follows (by omega) (by omega))
        (ih (by omega) (by omega)))

lemma countedTopLevel_follows {fuel fuel' : Nat} (enough : limit < depth + fuel)
    (le : fuel ≤ fuel') :
    Follows limit depth (countedTopLevel (τ := τ) none fuel')
      (countedTopLevel (some limit) fuel) fun s n => n = Stmt.branchLevel s := by
  refine .after (.skipNewlines _) fun t => ?_
  split
  · exact .pure rfl
  · refine .after (.pushBack t) fun _ => ?_
    refine (countedStatement_follows enough le).bind fun s n here => .pure ?_
    rw [Nat.max_zero]
    exact here

end Parse
end ScriptEngine
