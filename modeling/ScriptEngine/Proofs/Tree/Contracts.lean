import ScriptEngine.Proofs.Tree.Remainder

/-!
# Contracts of the functions that read expressions

A contract says from which states a step of the parser may be taken, what then holds of its value and
of the state afterwards, and with which errors it may fail (`Meets`).  Contracts are put one behind
the other as steps are.

The states are those of a parser that stands in a text, at a position or behind it, with so much left
to read (`Parser.Amid`).  An expression leaves the parser further on and less to read.  It never
fails for want of budget, and for want of room only where as much was left to read as there was
room (`Orderly`).  All contracts are about two parsers at once, the second of which has more budget
for its loops: it always does the same, so no loop of the first ends because its budget does.

There is one contract for each function that reads a part of an expression, given a contract for the
expressions inside it; `expression_meets` ties the knot.
-/

namespace ScriptEngine

open TokenStream

namespace Parse

variable {α β : Type} {more : Nat}

/-- From a state in `pre` the first step does what the second does with more budget.  If it succeeds
the value and the state afterwards are in `post`; if it fails, the error and the state are in
`err`. -/
def Meets (more : Nat) (pre : Parser Lexer → Prop) (x : Parse Lexer α) (y : Parse Generous α)
    (post : α → Parser Lexer → Prop) (err : ScriptError → Parser Lexer → Prop) : Prop :=
  ∀ p, pre p →
    match x p with
    | .ok a p' => y (p.generous more) = .ok a (p'.generous more) ∧ post a p'
    | .error e p' => y (p.generous more) = .error e (p'.generous more) ∧ err e p'

namespace Meets

variable {pre pre' : Parser Lexer → Prop} {x : Parse Lexer α} {y : Parse Generous α}
  {post post' : α → Parser Lexer → Prop} {post'' : β → Parser Lexer → Prop}
  {err err' : ScriptError → Parser Lexer → Prop} {f : α → Parse Lexer β} {g : α → Parse Generous β}

lemma bind (first : Meets more pre x y post err)
    (rest : ∀ a, Meets more (post a) (f a) (g a) post'' err) :
    Meets more pre (x >>= f) (y >>= g) post'' err := by
  intro p holds
  have done := first p holds
  cases run : x p with
  | ok a p₁ =>
    rw [run] at done
    rw [bind_of_ok run, bind_of_ok done.1]
    exact rest a p₁ done.2
  | error e p₁ =>
    rw [run] at done
    rw [bind_of_error run, bind_of_error done.1]
    exact ⟨rfl, done.2⟩

lemma of_ok {a : α} {p p' : Parser Lexer} (meets : Meets more pre x y post err) (holds : pre p)
    (run : x p = .ok a p') : post a p' := by
  have done := meets p holds
  rw [run] at done
  exact done.2

lemma of_error {e : ScriptError} {p p' : Parser Lexer} (meets : Meets more pre x y post err)
    (holds : pre p) (run : x p = .error e p') : err e p' := by
  have done := meets p holds
  rw [run] at done
  exact done.2

lemma pre_mono (meets : Meets more pre x y post err) (stronger : ∀ p, pre' p → pre p) :
    Meets more pre' x y post err :=
  fun p holds => meets p (stronger p holds)

lemma mono (meets : Meets more pre x y post err) (weaker : ∀ a p, post a p → post' a p)
    (weaker_error : ∀ e p, err e p → err' e p) : Meets more pre x y post' err' := by
  intro p holds
  have done := meets p holds
  cases run : x p with
  | ok a p' =>
    rw [run] at done
    exact ⟨done.1, weaker a p' done.2⟩
  | error e p' =>
    rw [run] at done
    exact ⟨done.1, weaker_error e p' done.2⟩

lemma post_mono (meets : Meets more pre x y post err) (weaker : ∀ a p, post a p → post' a p) :
    Meets more pre x y post' err :=
  meets.mono weaker fun _ _ h => h

lemma conseq (meets : Meets more pre x y post err) (stronger : ∀ p, pre' p → pre p)
    (weaker : ∀ a p, post a p → post' a p) : Meets more pre' x y post' err :=
  (meets.pre_mono stronger).post_mono weaker

/-- From every single state. -/
lemma pointwise (each : ∀ p, pre p → Meets more (· = p) x y post err) : Meets more pre x y post err :=
  fun p holds => each p holds p rfl

lemma or (left : Meets more pre x y post err) (right : Meets more pre' x y post err) :
    Meets more (fun p => pre p ∨ pre' p) x y post err :=
  fun p holds => holds.elim (left p) (right p)

lemma pure {a : α} (holds : ∀ p, pre p → post a p) :
    Meets more pre (pure a) (pure a) post err :=
  fun p h => ⟨rfl, holds p h⟩

lemma get_bind {f : Parser Lexer → Parse Lexer α} {g : Parser Generous → Parse Generous α}
    (rest : ∀ p, pre p → Meets more (· = p) (f p) (g (p.generous more)) post err) :
    Meets more pre (get >>= f) (get >>= g) post err :=
  fun p holds => rest p holds p rfl

lemma fail {span : Span} {fault : GrammarFault}
    (holds : ∀ p, pre p → err ⟨.grammar fault, span⟩ p) :
    Meets more pre (fail span fault) (Parse.fail span fault) post err :=
  fun p h => ⟨rfl, holds p h⟩

lemma failHere {fault : GrammarFault}
    (holds : ∀ p, pre p → err ⟨.grammar fault, .single p.tokens.position p.tokens.line⟩ p) :
    Meets more pre (failHere fault) (Parse.failHere fault) post err :=
  fun p h => ⟨rfl, holds p h⟩

end Meets
end Parse

/-! ## Standing in a statement -/

namespace Parser

variable {text : List Char} {noted : List Nat} {q r q' r' : Nat} {p : Parser Lexer}

/-- The parser stands in the text at `q` or behind it and has at most `r` left to read; the attempts
`noted` have been made. -/
structure Amid (text : List Char) (noted : List Nat) (q r : Nat) (p : Parser Lexer) : Prop where
  sound : p.tokens.Sound text
  attempts : p.attempts = noted
  onward : q ≤ p.tokens.position
  left : p.tokens.left ≤ r

/-- Something has been read since the parser stood at `q` with `r` left to read. -/
def Past (text : List Char) (noted : List Nat) (q r : Nat) (p : Parser Lexer) : Prop :=
  0 < r ∧ p.Amid text noted (q + 1) (r - 1)

/-- The next token is an operator that was handed back. -/
def AtOperator (p : Parser Lexer) : Prop :=
  ∃ t ∈ p.tokens.pending, ∃ op, t.kind = .operator op

/-- The token has just been read. -/
structure Looked (text : List Char) (noted : List Nat) (q r : Nat) (t : Token) (p : Parser Lexer) :
    Prop where
  amid : p.Amid text noted q r
  returned : Amid text noted q r { p with tokens := p.tokens.pushBack t }
  proper : t.kind ≠ .endOfInput → p.Past text noted q r

/-- Reading on from the first parser, perhaps over newlines, led to the token and the second. -/
structure Reached (text : List Char) (p : Parser Lexer) (t : Token) (p' : Parser Lexer) : Prop where
  attempts : p'.attempts = p.attempts
  next : Lexer.Next text p.tokens t p'.tokens

lemma Amid.mono (h : p.Amid text noted q r) (before : q' ≤ q) (le : r ≤ r') :
    p.Amid text noted q' r' :=
  ⟨h.sound, h.attempts, before.trans h.onward, h.left.trans le⟩

lemma Past.amid (h : p.Past text noted q r) : p.Amid text noted q r :=
  h.2.mono (Nat.le_succ q) (Nat.sub_le r 1)

lemma Past.mono (h : p.Past text noted q r) (le : r ≤ r') : p.Past text noted q r' :=
  ⟨h.1.trans_le le, h.2.mono (Nat.le_refl _) (Nat.sub_le_sub_right le 1)⟩

lemma Reached.looked {p' : Parser Lexer} {t : Token} (h : p.Reached text t p')
    (amid : p.Amid text noted q r) : p'.Looked text noted q r t := by
  obtain ⟨attempts, step⟩ := h
  have attempts := attempts.trans amid.attempts
  have onward := step.start.trans step.onward
  refine ⟨⟨step.sound, attempts, amid.onward.trans onward, step.left_le.trans amid.left⟩,
    ⟨step.returned, attempts, amid.onward.trans step.start,
      step.returned_left_le.trans amid.left⟩, fun proper => ?_⟩
  obtain ⟨less, behind⟩ := step.proper proper
  have := amid.left
  have := amid.onward
  have := step.start
  exact ⟨by omega, step.sound, attempts, by omega, by omega⟩

/-- No loop of the parser takes more rounds than there is left to read. -/
lemma left_lt_budget (p : Parser Lexer) : p.tokens.left < p.budget := by
  have := p.tokens.left_le_remaining
  simp only [budget, attemptLimit]
  omega

end Parser

/-- An error that is no want of budget, and for want of room only if `deep` holds. -/
structure Orderly (noted : List Nat) (deep : Prop) (e : ScriptError) (p : Parser Lexer) : Prop where
  attempts : p.attempts = noted
  unstalled : e.fault ≠ .grammar .stalled
  room : e.fault = .grammar .tooDeep → deep

lemma Orderly.mono {noted : List Nat} {deep deep' : Prop} {e : ScriptError} {p : Parser Lexer}
    (h : Orderly noted deep e p) (imp : deep → deep') : Orderly noted deep' e p :=
  ⟨h.attempts, h.unstalled, imp ∘ h.room⟩

namespace Parse

variable {α β : Type} {more : Nat} {text : List Char} {noted : List Nat} {deep : Prop}
  {q r s : Nat} {t : Token}

open ScriptEngine.Parser (Amid Past Looked)

namespace Meets

variable {x : Parse Lexer α} {y : Parse Generous α} {post : α → Parser Lexer → Prop}
  {pre : Parser Lexer → Prop} {err : ScriptError → Parser Lexer → Prop}

/-- Reading a token, told by the state in front of it. -/
lemma reach (c : TokenContext) {p : Parser Lexer} (sound : p.tokens.Sound text) :
    Meets more (· = p) (next c) (Parse.next c) (p.Reached text) (Orderly p.attempts deep) := by
  intro p' here
  obtain rfl : p' = p := here
  have same : TokenStream.next c (p'.generous more).tokens =
      ((TokenStream.next c p'.tokens).1, ⟨(TokenStream.next c p'.tokens).2, more⟩) := rfl
  unfold Parse.next
  rw [same]
  rcases read : TokenStream.next c p'.tokens with ⟨e | t, l⟩
  · obtain ⟨fault, lexical⟩ := Lexer.fault_of_next read
    exact ⟨rfl, rfl, by simp [lexical], by simp [lexical]⟩
  · exact ⟨rfl, rfl, sound.next read⟩

lemma next (c : TokenContext) :
    Meets more (Amid text noted q r) (next c) (Parse.next c) (Looked text noted q r)
      (Orderly noted deep) := by
  refine .pointwise fun p amid => ?_
  obtain rfl := amid.attempts
  exact (reach c amid.sound).post_mono fun t p' reached => reached.looked amid

/-- A token that is not the end of the input has been read for good. -/
lemma consumed (proper : t.kind ≠ .endOfInput)
    (rest : Meets more (Past text noted q r) x y post err) :
    Meets more (Looked text noted q r t) x y post err :=
  rest.pre_mono fun _ looked => looked.proper proper

/-- A token is handed back. -/
lemma handedBack (rest : Meets more (Amid text noted q r) x y post err) :
    Meets more (Looked text noted q r t) (do pushBack t; x) (do pushBack t; y) post err :=
  fun _ looked => rest _ looked.returned

/-- What is done behind the first token read leads past it. -/
lemma past (rest : 0 < r → Meets more (Amid text noted (q + 1) (r - 1)) x y
      (fun _ => Amid text noted (q + 1) (r - 1)) err) :
    Meets more (Past text noted q r) x y (fun _ => Past text noted q r) err :=
  fun p h => ((rest h.1).post_mono fun _ _ amid => ⟨h.1, amid⟩) p h.2

lemma stays (meets : Meets more pre x y (fun _ => Past text noted q r) err) :
    Meets more pre x y (fun _ => Amid text noted q r) err :=
  meets.post_mono fun _ _ h => h.amid

/-- An error of the grammar that is neither for want of budget nor for want of room. -/
lemma refuse {span : Span} {fault : GrammarFault} (attempts : ∀ p, pre p → p.attempts = noted)
    (ordinary : fault ≠ .stalled ∧ fault ≠ .tooDeep) :
    Meets more pre (Parse.fail span fault) (Parse.fail span fault) post (Orderly noted deep) :=
  .fail fun p h => ⟨attempts p h, by simpa using ordinary.1, by simp [ordinary.2]⟩

/-- A loop that is given more rounds than there is left to read. -/
lemma get {f : Parser Lexer → Parse Lexer α} {g : Parser Generous → Parse Generous α}
    (rest : ∀ p s, s ≤ r → s < p.budget → s < (p.generous more).budget →
      Meets more (Amid text noted q s) (f p) (g (p.generous more)) post err) :
    Meets more (Amid text noted q r) (get >>= f) (get >>= g) post err := by
  refine .get_bind fun p amid => ?_
  have enough := p.left_lt_budget
  refine (rest p p.tokens.left amid.left enough
    (enough.trans_le (p.budget_le_generous more))).pre_mono ?_
  rintro _ rfl
  exact ⟨amid.sound, amid.attempts, amid.onward, Nat.le_refl _⟩

lemma peekKind :
    Meets more (Amid text noted q r) peekKind Parse.peekKind (fun _ => Amid text noted q r)
      (Orderly noted deep) :=
  (next .expression).bind fun _ => .handedBack (.pure fun _ h => h)

lemma expect (place : Place) :
    Meets more (Amid text noted q r) (expect place) (Parse.expect place)
      (fun _ => Past text noted q r) (Orderly noted deep) := by
  refine (next .expression).bind fun t => ?_
  split
  · next kind => exact .consumed (by cases place <;> simp [kind, Place.kind]) (.pure fun _ h => h)
  · exact .refuse (fun _ h => h.amid.attempts) (by simp)

end Meets
/-! ## Expressions -/

/-- The reader reads expressions, and lacks room only where as much is left to read as it has
room. -/
def MeetsExpressions (more room : Nat) (x : Parse Lexer Expr) (y : Parse Generous Expr) : Prop :=
  ∀ text noted q r, Meets more (Amid text noted q r) x y (fun _ => Past text noted q r)
    (Orderly noted (room ≤ r))

section

variable {room : Nat} {x : Parse Lexer Expr} {y : Parse Generous Expr}
  (inner : MeetsExpressions more room x y)
include inner

/-- An expression inside another. -/
lemma MeetsExpressions.within (less : s < r) :
    Meets more (Amid text noted q s) x y (fun _ => Past text noted q s)
      (Orderly noted (room < r)) :=
  (inner text noted q s).mono (fun _ _ h => h) fun _ _ e => e.mono fun full => by omega

lemma argumentsWithin_meets (less : s < r) {budget budget' : Nat} (enough : s < budget)
    (enough' : s < budget') (before : List Expr) :
    Meets more (Amid text noted q s) (argumentsWithin x budget before)
      (argumentsWithin y budget' before) (fun _ => Amid text noted q s)
      (Orderly noted (room < r)) := by
  induction budget generalizing budget' before q s with
  | zero => exact absurd enough (Nat.not_lt_zero s)
  | succ budget ih =>
    obtain ⟨budget', rfl⟩ := Nat.exists_eq_succ_of_ne_zero (Nat.ne_zero_of_lt enough')
    refine (inner.within less).bind fun e => (Meets.past fun pos => ?_).stays
    refine (Meets.next .expression).bind fun t => ?_
    split
    · next comma =>
      refine .consumed (by simp [comma]) (Meets.past fun _ => ?_).stays
      exact ih (by omega) (by omega) (by omega) (e :: before)
    · next close =>
      exact .consumed (by simp [close]) (.pure fun _ h => h.amid)
    · exact .refuse (fun _ h => h.amid.attempts) (by simp)

lemma call_meets (less : s < r) (callee : Token) :
    Meets more (Amid text noted q s) (call x callee) (call y callee) (fun _ => Amid text noted q s)
      (Orderly noted (room < r)) := by
  refine (Meets.expect .callOpen).bind fun _ => (Meets.past fun _ => ?_).stays
  refine (Meets.next .expression).bind fun t => ?_
  split
  · next close => exact .consumed (by simp [close]) (.pure fun _ h => h.amid)
  · refine .handedBack (.get fun p s' le enough enough' => ?_)
    refine (argumentsWithin_meets inner (by omega) enough enough' []).bind fun ⟨args, close⟩ => ?_
    exact .pure fun _ h => h.mono (Nat.le_refl _) le

lemma named_meets (less : s < r) (name : Token) :
    Meets more (Amid text noted q s) (named x name) (named y name) (fun _ => Amid text noted q s)
      (Orderly noted (room < r)) := by
  refine (Meets.next .expression).bind fun t => ?_
  split
  · next assign =>
    refine .consumed (by simp [assign]) (Meets.past fun _ => ?_).stays
    refine Meets.peekKind.bind fun kind => ?_
    split
    · refine (inner.within (by omega)).bind fun value => .pure fun _ h => h.amid
    · exact .refuse (fun _ h => h.attempts) (by simp)
  · next op => exact .consumed (by simp [op]) (.pure fun _ h => h.amid)
  · next op => exact .consumed (by simp [op]) (.pure fun _ h => h.amid)
  · exact .handedBack (.pure fun _ h => h)

lemma operand_meets (le : s ≤ r) :
    Meets more (Amid text noted q s) (operand x) (operand y) (fun _ => Past text noted q s)
      (Orderly noted (room < r)) := by
  refine (Meets.next .expression).bind fun t => ?_
  split
  · next literal => exact .consumed (by simp [literal]) (.pure fun _ h => h)
  · next name =>
    exact .consumed (by simp [name]) (Meets.past fun _ => named_meets inner (by omega) t)
  · next callName =>
    exact .consumed (by simp [callName]) (Meets.past fun _ => call_meets inner (by omega) t)
  · next leftParen =>
    refine .consumed (by simp [leftParen]) (Meets.past fun _ => ?_)
    refine (inner.within (by omega)).bind fun e => (Meets.past fun _ => ?_).stays
    exact (Meets.expect .groupClose).bind fun close => .pure fun _ h => h.amid
  · exact .refuse (fun _ h => h.amid.attempts) (by simp)

lemma operandAfter_meets (le : s ≤ r) (operator : Token) :
    Meets more (Amid text noted q s) (operandAfter x operator) (operandAfter y operator)
      (fun _ => Past text noted q s) (Orderly noted (room < r)) := by
  refine Meets.peekKind.bind fun kind => ?_
  split
  · exact operand_meets inner le
  · refine (Meets.next .expression).bind fun t => ?_
    exact .refuse (fun _ h => h.amid.attempts) (by simp)

lemma rightOperand_meets (le : s ≤ r) (op : Operator) (operator : Token) :
    Meets more (Amid text noted q s) (rightOperand x op operator) (rightOperand y op operator)
      (fun _ => Amid text noted q s) (Orderly noted (room < r)) := by
  rw [rightOperand, rightOperand]
  split
  · refine Meets.peekKind.bind fun kind => ?_
    split
    · exact (operandAfter_meets inner le operator).stays
    · exact .pure fun _ h => h
  · exact (operandAfter_meets inner le operator).stays

end

/-- What comes next is known to be an operator, if `opens` holds. -/
lemma Meets.next_operator {opens : Prop} :
    Meets more (fun p => Amid text noted q r p ∧ (opens → p.AtOperator)) (Parse.next .expression)
      (Parse.next .expression)
      (fun t p => Looked text noted q r t p ∧ (opens → ∃ op, t.kind = .operator op))
      (Orderly noted deep) := by
  rintro p ⟨amid, operator⟩
  have done : Meets more (Amid text noted q r) (Parse.next .expression) (Parse.next .expression)
      (Looked text noted q r) (Orderly noted deep) := Meets.next .expression
  have done := done p amid
  rcases run : Parse.next .expression p with ⟨t, p'⟩ | ⟨e, p'⟩
  · rw [run] at done
    refine ⟨done.1, done.2, fun holds => ?_⟩
    obtain ⟨u, pending, op, kind⟩ := operator holds
    obtain ⟨l, read, -⟩ := next_eq_ok.1 run
    have : u = t := by
      have returned : p.tokens.next .expression = (.ok u, ⟨p.tokens.cursor, none⟩) :=
        Lexer.next_eq_ok.2 (.inl ⟨pending, rfl⟩)
      exact Except.ok.inj (congrArg Prod.fst (returned.symm.trans read))
    exact ⟨op, this ▸ kind⟩
  · rw [run] at done
    exact done

section

variable {room : Nat} {x : Parse Lexer Expr} {y : Parse Generous Expr}
  (inner : MeetsExpressions more room x y)
include inner

/-- A chain that goes on with an operator leads past it. -/
lemma chainWithin_meets (opens : Prop) (le : s ≤ r) {budget budget' : Nat} (enough : s < budget)
    (enough' : s < budget') (first : Expr) (before : List (Operator × Expr)) (last : Span) :
    Meets more (fun p => Amid text noted q s p ∧ (opens → p.AtOperator))
      (chainWithin x first budget before last) (chainWithin y first budget' before last)
      (fun _ p => Amid text noted q s p ∧ (opens → p.Past text noted q s))
      (Orderly noted (room < r)) := by
  induction budget generalizing budget' opens before last q s with
  | zero => exact absurd enough (Nat.not_lt_zero s)
  | succ budget ih =>
    obtain ⟨budget', rfl⟩ := Nat.exists_eq_succ_of_ne_zero (Nat.ne_zero_of_lt enough')
    refine Meets.next_operator.bind fun t => ?_
    split
    · next op operator =>
      refine Meets.conseq (.consumed (by simp [operator]) (.past fun pos => ?_))
        (fun p looked => looked.1) fun _ p past => ⟨past.amid, fun _ => past⟩
      split
      · refine Meets.peekKind.bind fun kind => ?_
        split
        · exact (inner.within (by omega)).bind fun right => .pure fun _ h => h.amid
        · exact .refuse (fun _ h => h.attempts) (by simp)
      · refine (rightOperand_meets inner (by omega) op t).bind fun right => ?_
        exact (ih False (by omega) (by omega) (by omega) _ _).conseq
          (fun p amid => ⟨amid, False.elim⟩) fun _ p h => h.1
    · next other =>
      by_cases holds : opens
      · intro p looked
        obtain ⟨op, kind⟩ := looked.2 holds
        exact absurd kind (other op)
      · refine Meets.pre_mono (.handedBack (.pure fun p amid => ?_)) fun p looked => looked.1
        exact ⟨amid, fun opened => absurd opened holds⟩

/-- In front of an operator nothing is read. -/
lemma firstOperand_meets (le : s ≤ r) :
    Meets more (Amid text noted q s) (firstOperand x) (firstOperand y)
      (fun _ p => p.Past text noted q s ∨ Amid text noted q s p ∧ p.AtOperator)
      (Orderly noted (room < r)) := by
  refine (Meets.next .expression).bind fun t => ?_
  split
  · next op operator =>
    intro p looked
    exact ⟨rfl, .inr ⟨looked.returned, t, rfl, op, operator⟩⟩
  · refine .handedBack ?_
    exact (operand_meets inner le).post_mono fun _ _ past => .inl past

lemma expressionBody_meets :
    MeetsExpressions more (room + 1) (expressionBody x) (expressionBody y) := by
  intro text noted q r
  refine (firstOperand_meets inner (Nat.le_refl r)).bind fun first => .or ?_ ?_
  · refine .past fun pos => .get fun p s le enough enough' => ?_
    exact (chainWithin_meets inner False (le.trans (Nat.sub_le r 1)) enough enough' _ _ _).conseq
      (fun p amid => ⟨amid, False.elim⟩) fun _ p h => h.1.mono (Nat.le_refl _) le
  · refine .get_bind fun p ⟨amid, operator⟩ => ?_
    have enough := p.left_lt_budget
    have enough' := enough.trans_le (p.budget_le_generous more)
    refine (chainWithin_meets inner True amid.left enough enough' _ _ _).conseq (fun p' here => ?_)
      fun _ p' h => (h.2 trivial).mono amid.left
    obtain rfl : p' = p := here
    exact ⟨⟨amid.sound, amid.attempts, amid.onward, Nat.le_refl _⟩, fun _ => operator⟩

end

lemma expression_meets (room : Nat) :
    MeetsExpressions more room (expression room) (expression room) := by
  induction room with
  | zero =>
    exact fun text noted q r => .failHere fun p amid =>
      ⟨amid.attempts, by simp, fun _ => Nat.zero_le r⟩
  | succ room ih => exact expressionBody_meets ih

end Parse
end ScriptEngine
