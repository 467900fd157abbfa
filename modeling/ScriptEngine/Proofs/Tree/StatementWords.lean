import ScriptEngine.Proofs.Tree.StatementGrammar

/-!
# The words of a statement

`Stmt.words` lists the tokens that a statement shows in its tree.  A derivation of the statement has
these tokens in this order, and besides them only newlines and, for each simple statement, at most
one semicolon (`Stmt.DerivedFrom.thins`).

`Stmt.keywords` lists the keywords that shape a statement.  They are the only ones in a derivation of
it (`Stmt.DerivedFrom.keywords_eq`): an expression has none, and of the clauses of a loop only a
declaration behind `for (` has one.
-/

namespace ScriptEngine

/-! ## Words -/

def Expr.optionWords (e : Option Expr) : List Word :=
  e.elim [] Expr.words

def Declarator.words (d : Declarator) : List Word :=
  ⟨.name, d.name⟩ :: d.initializer.elim [] fun value => .symbol .assign :: value.words

/-- The words of declarators, with the commas between them. -/
def Declarator.allWords : List Declarator → List Word
  | [] => []
  | [d] => d.words
  | d :: ds => d.words ++ .symbol .comma :: allWords ds

namespace Stmt

mutual

/-- The words of a statement, without the ends of simple statements. -/
def words : Stmt → List Word
  | empty _ => []
  | expression expr _ => expr.words
  | block statements _ =>
    .symbol .leftBrace :: (allWords statements ++ [.symbol .rightBrace])
  | choice condition thenBranch elseBranch _ =>
    .symbol (.keyword .ifWord) :: .symbol .leftParen ::
      (condition.words ++ .symbol .rightParen :: (words thenBranch ++ branchWords elseBranch))
  | loop start condition increment body _ =>
    .symbol (.keyword .forWord) :: .symbol .leftParen ::
      (startWords start ++ .symbol .semicolon ::
        (Expr.optionWords condition ++ .symbol .semicolon ::
          (Expr.optionWords increment ++ .symbol .rightParen :: words body)))
  | declare declarators _ => .symbol (.keyword .varWord) :: Declarator.allWords declarators
  | giveBack value _ => .symbol (.keyword .returnWord) :: Expr.optionWords value

def branchWords : Option Stmt → List Word
  | none => []
  | some other => .symbol (.keyword .elseWord) :: words other

def startWords : Option Stmt → List Word
  | none => []
  | some start => words start

def allWords : List Stmt → List Word
  | [] => []
  | s :: rest => words s ++ allWords rest

end

mutual

/-- How many statements without parts of their own there are.  What stands in front of a loop is not
counted, for it has no terminator. -/
def simpleCount : Stmt → Nat
  | empty _ | expression _ _ | declare _ _ | giveBack _ _ => 1
  | block statements _ => allSimpleCount statements
  | choice _ thenBranch elseBranch _ => simpleCount thenBranch + branchSimpleCount elseBranch
  | loop _ _ _ body _ => simpleCount body

def branchSimpleCount : Option Stmt → Nat
  | none => 0
  | some other => simpleCount other

def allSimpleCount : List Stmt → Nat
  | [] => 0
  | s :: rest => simpleCount s + allSimpleCount rest

end

end Stmt

/-! ## Leaving out -/

/-- The words are those of the tokens, except that newlines and `n` semicolons are left out. -/
inductive Thins : List Token → List Word → Nat → Prop
  | nil : Thins [] [] 0
  | keep {t : Token} {ts : List Token} {ws : List Word} {n : Nat} (rest : Thins ts ws n) :
    Thins (t :: ts) (t.word :: ws) n
  | newline {t : Token} {ts : List Token} {ws : List Word} {n : Nat} (skipped : t.IsNewline)
    (rest : Thins ts ws n) : Thins (t :: ts) ws n
  | semicolon {t : Token} {ts : List Token} {ws : List Word} {n : Nat}
    (kind : t.kind = .semicolon) (rest : Thins ts ws n) : Thins (t :: ts) ws (n + 1)

namespace Thins

variable {ts us : List Token} {ws vs : List Word} {m n : Nat}

lemma append (first : Thins ts ws m) (second : Thins us vs n) :
    Thins (ts ++ us) (ws ++ vs) (m + n) := by
  induction first with
  | nil => simpa using second
  | keep _ ih => exact .keep ih
  | newline skipped _ ih => exact .newline skipped ih
  | semicolon kind _ ih =>
    rw [Nat.add_right_comm]
    exact .semicolon kind ih

lemma symbol {t : Token} {kind : TokenKind} (h : t.kind = kind) (spelling : kind.spelling?.isSome)
    (rest : Thins ts ws n) : Thins (t :: ts) (.symbol kind :: ws) n := by
  rw [← Token.word_eq_symbol h spelling]
  exact .keep rest

lemma all (ts : List Token) : Thins ts (ts.map Token.word) 0 := by
  induction ts with
  | nil => exact .nil
  | cons t ts ih => exact .keep ih

lemma newlines (skipped : ∀ t ∈ ts, t.IsNewline) : Thins ts [] 0 := by
  induction ts with
  | nil => exact .nil
  | cons t ts ih =>
    simp only [List.mem_cons, forall_eq_or_imp] at skipped
    exact .newline skipped.1 (ih skipped.2)

end Thins

lemma Expr.DerivedFrom.thins {e : Expr} {ts : List Token} (h : e.DerivedFrom ts) :
    Thins ts e.words 0 := by
  rw [← h.words]
  exact .all ts

lemma Expr.OptionDerivedFrom.thins {e : Option Expr} {ts : List Token}
    (h : Expr.OptionDerivedFrom e ts) : Thins ts (Expr.optionWords e) 0 := by
  cases h with
  | none => exact .nil
  | some expression => exact expression.thins

lemma Declarator.DerivedFrom.thins {d : Declarator} {ts : List Token} (h : d.DerivedFrom ts) :
    Thins ts d.words 0 := by
  cases h with
  | unbound named =>
    rw [words, ← Token.word_eq_text named rfl]
    exact .keep .nil
  | bound named assigns initializer =>
    rw [words, ← Token.word_eq_text named rfl]
    exact .keep (.symbol assigns rfl initializer.thins)

lemma Declarator.AllDerivedFrom.thins {ds : List Declarator} {ts : List Token}
    (h : Declarator.AllDerivedFrom ds ts) : Thins ts (Declarator.allWords ds) 0 := by
  induction h with
  | last one => exact one.thins
  | @more d ds comma ts us one separates others ih =>
    cases ds with
    | nil => cases others
    | cons d' ds => exact one.thins.append (.symbol separates rfl ih)

lemma Stmt.StartDerivedFrom.thins {start : Option Stmt} {ts : List Token}
    (h : Stmt.StartDerivedFrom start ts) : Thins ts (Stmt.startWords start) 0 := by
  cases h with
  | none => exact .nil
  | declare word declarators => exact .symbol word rfl declarators.thins
  | expression expression => exact expression.thins

lemma TerminatorFrom.thins {ts rest : List Token} (h : TerminatorFrom ts rest) :
    ∃ n ≤ 1, Thins ts [] n := by
  cases h with
  | written kind =>
    rcases kind with semicolon | newline
    · exact ⟨1, Nat.le_refl 1, .semicolon semicolon .nil⟩
    · exact ⟨0, Nat.zero_le 1, .newline newline .nil⟩
  | implied _ => exact ⟨0, Nat.zero_le 1, .nil⟩

namespace Stmt

mutual

/-- Besides the words of the statement there are newlines, and semicolons that end its simple
statements. -/
lemma DerivedFrom.thins {s : Stmt} {ts rest : List Token} :
    s.DerivedFrom ts rest → ∃ n ≤ s.simpleCount, Thins ts s.words n
  | .newline skipped later => by
    obtain ⟨n, few, thins⟩ := later.thins
    exact ⟨n, few, .newline skipped thins⟩
  | .semicolon kind => ⟨1, Nat.le_refl 1, .semicolon kind .nil⟩
  | .missing _ => ⟨0, Nat.zero_le 1, .nil⟩
  | .expression derived ends => by
    obtain ⟨n, few, thins⟩ := ends.thins
    exact ⟨n, few, by simpa [words] using derived.thins.append thins⟩
  | .block opens inside skipped closes => by
    obtain ⟨n, few, thins⟩ := inside.thins
    have closing := (Thins.newlines skipped).append (.symbol closes rfl .nil)
    exact ⟨n, few, by simpa [words] using Thins.symbol opens rfl (thins.append closing)⟩
  | .choice decides opens tests closes branch => by
    obtain ⟨n, few, thins⟩ := branch.thins
    refine ⟨n, by simpa [simpleCount, branchSimpleCount] using few, ?_⟩
    have header := tests.thins.append (.symbol closes rfl thins)
    simpa [words, branchWords] using Thins.symbol decides rfl (.symbol opens rfl header)
  | .choiceElse decides opens tests closes branch nearest skipped otherwise other => by
    obtain ⟨n, few, thins⟩ := branch.thins
    obtain ⟨m, few', thins'⟩ := other.thins
    refine ⟨n + m, by simp only [simpleCount, branchSimpleCount]; omega, ?_⟩
    have behind := (Thins.newlines skipped).append (.symbol otherwise rfl thins')
    have header := tests.thins.append (.symbol closes rfl (thins.append behind))
    simpa [words, branchWords] using Thins.symbol decides rfl (.symbol opens rfl header)
  | .loop repeats opens starts divides tests separates steps closes inside => by
    obtain ⟨n, few, thins⟩ := inside.thins
    refine ⟨n, few, ?_⟩
    have clauses := tests.thins.append (.symbol separates rfl
      (steps.thins.append (.symbol closes rfl thins)))
    have header := starts.thins.append (.symbol divides rfl clauses)
    simpa [words] using Thins.symbol repeats rfl (.symbol opens rfl header)
  | .declare declares declarators ends => by
    obtain ⟨n, few, thins⟩ := ends.thins
    have body := declarators.thins.append thins
    exact ⟨n, few, by simpa [words] using Thins.symbol declares rfl body⟩
  | .giveBack returns derived ends => by
    obtain ⟨n, few, thins⟩ := ends.thins
    have body := derived.thins.append thins
    exact ⟨n, few, by simpa [words] using Thins.symbol returns rfl body⟩

lemma AllDerivedFrom.thins {statements : List Stmt} {ts rest : List Token} :
    AllDerivedFrom statements ts rest →
      ∃ n ≤ allSimpleCount statements, Thins ts (allWords statements) n
  | .nil => ⟨0, Nat.le_refl 0, .nil⟩
  | .cons skipped _ _ one more => by
    obtain ⟨n, few, thins⟩ := one.thins
    obtain ⟨m, few', thins'⟩ := more.thins
    refine ⟨n + m, by simp only [allSimpleCount]; omega, ?_⟩
    simpa [allWords] using (Thins.newlines skipped).append (thins.append thins')

end

end Stmt

/-! ## Keywords -/

/-- The keyword that a token of this kind is. -/
def TokenKind.keyword? : TokenKind → Option Keyword
  | keyword word => some word
  | _ => none

/-- The keywords among some words. -/
def Word.keywords (words : List Word) : List Keyword :=
  words.filterMap (·.kind.keyword?)

/-- The keywords among some tokens. -/
def Token.keywords (ts : List Token) : List Keyword :=
  ts.filterMap (·.kind.keyword?)

namespace Stmt

mutual

/-- The keywords that shape a statement, in the order in which they stand. -/
def keywords : Stmt → List Keyword
  | empty _ | expression _ _ => []
  | block statements _ => allKeywords statements
  | choice _ thenBranch elseBranch _ => .ifWord :: (keywords thenBranch ++ branchKeywords elseBranch)
  | loop start _ _ body _ => .forWord :: (startKeywords start ++ keywords body)
  | declare _ _ => [.varWord]
  | giveBack _ _ => [.returnWord]

def branchKeywords : Option Stmt → List Keyword
  | none => []
  | some other => .elseWord :: keywords other

def startKeywords : Option Stmt → List Keyword
  | none => []
  | some start => keywords start

def allKeywords : List Stmt → List Keyword
  | [] => []
  | s :: rest => keywords s ++ allKeywords rest

end

end Stmt

namespace Word

@[simp] lemma keywords_nil : keywords [] = [] := rfl

@[simp] lemma keywords_append (ws vs : List Word) :
    keywords (ws ++ vs) = keywords ws ++ keywords vs :=
  List.filterMap_append

@[simp] lemma keywords_symbol_keyword (word : Keyword) (ws : List Word) :
    keywords (.symbol (.keyword word) :: ws) = word :: keywords ws := rfl

lemma keywords_cons_of_none {word : Word} (ordinary : word.kind.keyword? = none)
    (ws : List Word) : keywords (word :: ws) = keywords ws :=
  List.filterMap_cons_none ordinary

lemma keywords_eq_nil {ws : List Word} (expressive : ∀ word ∈ ws, word.kind.isExpressive) :
    keywords ws = [] := by
  refine List.filterMap_eq_nil_iff.2 fun word mem => ?_
  have ordinary := TokenKind.ne_keyword (expressive word mem)
  cases kind : word.kind <;> first | rfl | exact absurd kind (ordinary _)

end Word

@[simp] lemma Expr.keywords_words (e : Expr) : Word.keywords e.words = [] :=
  Word.keywords_eq_nil e.kind_of_mem_words

@[simp] lemma Expr.keywords_optionWords (e : Option Expr) :
    Word.keywords (Expr.optionWords e) = [] := by
  cases e with
  | none => rfl
  | some e => exact e.keywords_words

lemma Declarator.keywords_words (d : Declarator) : Word.keywords d.words = [] := by
  rw [words, Word.keywords_cons_of_none rfl]
  cases d.initializer with
  | none => rfl
  | some value => exact (Word.keywords_cons_of_none rfl _).trans value.keywords_words

@[simp] lemma Declarator.keywords_allWords (ds : List Declarator) :
    Word.keywords (Declarator.allWords ds) = [] := by
  induction ds with
  | nil => rfl
  | cons d ds ih =>
    cases ds with
    | nil => exact d.keywords_words
    | cons d' ds =>
      rw [allWords, Word.keywords_append, d.keywords_words, Word.keywords_cons_of_none rfl, ih]
      · rfl
      · simp

namespace Stmt

mutual

lemma keywords_words : (s : Stmt) → Word.keywords s.words = s.keywords
  | empty _ => rfl
  | expression expr _ => expr.keywords_words
  | block statements _ => by
    rw [words, keywords, Word.keywords_cons_of_none rfl, Word.keywords_append,
      keywords_allWords statements, Word.keywords_cons_of_none rfl, Word.keywords_nil,
      List.append_nil]
  | choice condition thenBranch elseBranch _ => by
    rw [words, keywords, Word.keywords_symbol_keyword, Word.keywords_cons_of_none rfl,
      Word.keywords_append, condition.keywords_words, List.nil_append,
      Word.keywords_cons_of_none rfl, Word.keywords_append, keywords_words thenBranch,
      keywords_branchWords elseBranch]
  | loop start condition increment body _ => by
    rw [words, keywords, Word.keywords_symbol_keyword, Word.keywords_cons_of_none rfl,
      Word.keywords_append, keywords_startWords start, Word.keywords_cons_of_none rfl,
      Word.keywords_append, Expr.keywords_optionWords, List.nil_append,
      Word.keywords_cons_of_none rfl, Word.keywords_append, Expr.keywords_optionWords,
      List.nil_append, Word.keywords_cons_of_none rfl, keywords_words body]
  | declare declarators _ => by
    rw [words, keywords, Word.keywords_symbol_keyword, Declarator.keywords_allWords]
  | giveBack value _ => by
    rw [words, keywords, Word.keywords_symbol_keyword, Expr.keywords_optionWords]

lemma keywords_branchWords :
    (other : Option Stmt) → Word.keywords (branchWords other) = branchKeywords other
  | none => rfl
  | some other => by
    rw [branchWords, branchKeywords, Word.keywords_symbol_keyword, keywords_words other]

lemma keywords_startWords :
    (start : Option Stmt) → Word.keywords (startWords start) = startKeywords start
  | none => rfl
  | some start => keywords_words start

lemma keywords_allWords :
    (statements : List Stmt) → Word.keywords (allWords statements) = allKeywords statements
  | [] => rfl
  | s :: rest => by
    rw [allWords, allKeywords, Word.keywords_append, keywords_words s, keywords_allWords rest]

end

end Stmt

lemma Token.keywords_cons_of_none {t : Token} (ordinary : t.kind.keyword? = none)
    (ts : List Token) : keywords (t :: ts) = keywords ts :=
  List.filterMap_cons_none ordinary

/-- What is left out is no keyword. -/
lemma Thins.keywords_eq {ts : List Token} {ws : List Word} {n : Nat} (thins : Thins ts ws n) :
    Token.keywords ts = Word.keywords ws := by
  induction thins with
  | nil => rfl
  | @keep t ts ws n rest ih =>
    cases kind : t.kind.keyword? with
    | none => rwa [Token.keywords_cons_of_none kind, Word.keywords_cons_of_none kind]
    | some word =>
      have first : Token.keywords (t :: ts) = word :: Token.keywords ts :=
        List.filterMap_cons_some kind
      have first' : Word.keywords (t.word :: ws) = word :: Word.keywords ws :=
        List.filterMap_cons_some kind
      rw [first, first', ih]
  | @newline t ts ws n skipped rest ih =>
    rwa [Token.keywords_cons_of_none (by rw [show t.kind = .newline from skipped]; rfl)]
  | @semicolon t ts ws n kind rest ih =>
    rwa [Token.keywords_cons_of_none (by rw [kind]; rfl)]

/-- The keywords in a derivation of a statement are those that shape it. -/
theorem Stmt.DerivedFrom.keywords_eq {s : Stmt} {ts rest : List Token}
    (h : s.DerivedFrom ts rest) : Token.keywords ts = s.keywords := by
  obtain ⟨n, -, thins⟩ := h.thins
  rw [thins.keywords_eq, s.keywords_words]

end ScriptEngine
