import ScriptEngine.Proofs.Tree.Spans

/-!
# What a tree mentions

Carrying out a tree touches the variables and the natives that it mentions and no others.
`Expr.mentions` and its companions list them in the order of the text, each with what is done to it.
The variables that occur in a script (`Script.variableNames`) and those that it may write
(`Script.targets`) are read off that list.

Statements themselves do nothing but evaluate expressions and carry out declarators, their parts
(`Stmt.parts`), and what they mention is what their parts mention (`Stmt.mentions_eq`).
-/

namespace ScriptEngine

/-- A name in a tree, and what the tree does with it. -/
inductive Mention
  | read (name : String)
  | assign (name : String)
  | step (name : String)
  | declare (name : String)
  | call (name : String)
deriving DecidableEq, Repr

namespace Mention

/-- The variable that is mentioned; natives are no variables. -/
def variableName? : Mention → Option String
  | read name | assign name | step name | declare name => some name
  | call _ => none

/-- The variable that is written. -/
def target? : Mention → Option String
  | assign name | step name | declare name => some name
  | read _ | call _ => none

end Mention

mutual

/-- What an expression mentions. -/
def Expr.mentions : Expr → List Mention
  | .empty _ | .literal _ _ => []
  | .read name _ => [.read name]
  | .assign name value _ => value.mentions ++ [.assign name]
  | .step name _ _ => [.step name]
  | .chain first rest _ => first.mentions ++ chainMentions rest
  | .connect left _ right _ => left.mentions ++ right.mentions
  | .call name args _ => allMentions args ++ [.call name]
  | .grouping inner _ => inner.mentions

def chainMentions : List (Operator × Expr) → List Mention
  | [] => []
  | (_, operand) :: rest => operand.mentions ++ chainMentions rest

def allMentions : List Expr → List Mention
  | [] => []
  | e :: rest => e.mentions ++ allMentions rest

end

/-- What an expression that may be missing mentions. -/
def Expr.optionMentions (e : Option Expr) : List Mention :=
  e.elim [] Expr.mentions

def Declarator.mentions (d : Declarator) : List Mention :=
  Expr.optionMentions d.initializer ++ [.declare d.name]

namespace Stmt

mutual

/-- What a statement mentions. -/
def mentions : Stmt → List Mention
  | empty _ => []
  | expression expr _ => expr.mentions
  | block statements _ => allMentions statements
  | choice condition thenBranch elseBranch _ =>
    condition.mentions ++ (thenBranch.mentions ++ branchMentions elseBranch)
  | loop start condition increment body _ =>
    branchMentions start ++ (Expr.optionMentions condition ++
      (Expr.optionMentions increment ++ body.mentions))
  | declare declarators _ => declarators.flatMap Declarator.mentions
  | giveBack value _ => Expr.optionMentions value

/-- What a statement that may be missing mentions. -/
def branchMentions : Option Stmt → List Mention
  | none => []
  | some other => other.mentions

def allMentions : List Stmt → List Mention
  | [] => []
  | s :: rest => s.mentions ++ allMentions rest

end

end Stmt

/-! ## Parts -/

/-- What a statement evaluates or carries out that is no statement itself. -/
inductive Part
  | expression (e : Expr)
  | declarator (d : Declarator)

namespace Part

def mentions : Part → List Mention
  | expression e => e.mentions
  | declarator d => d.mentions

def declarator? : Part → Option Declarator
  | expression _ => none
  | declarator d => some d

/-- The part that an expression is, if it is not missing. -/
def optional (e : Option Expr) : List Part :=
  e.elim [] fun e => [expression e]

end Part

namespace Stmt

mutual

/-- The parts of a statement and of those inside it, in the order of the text. -/
def parts : Stmt → List Part
  | empty _ => []
  | expression expr _ => [.expression expr]
  | block statements _ => allParts statements
  | choice condition thenBranch elseBranch _ =>
    .expression condition :: (thenBranch.parts ++ branchParts elseBranch)
  | loop start condition increment body _ =>
    branchParts start ++ (Part.optional condition ++ (Part.optional increment ++ body.parts))
  | declare declarators _ => declarators.map Part.declarator
  | giveBack value _ => Part.optional value

/-- The parts of a statement that may be missing. -/
def branchParts : Option Stmt → List Part
  | none => []
  | some other => other.parts

def allParts : List Stmt → List Part
  | [] => []
  | s :: rest => s.parts ++ allParts rest

end

lemma declarators_mentions (declarators : List Declarator) :
    declarators.flatMap Declarator.mentions =
      (declarators.map Part.declarator).flatMap Part.mentions := by
  rw [List.flatMap_map]
  rfl

lemma optional_mentions (e : Option Expr) :
    Expr.optionMentions e = (Part.optional e).flatMap Part.mentions := by
  cases e with
  | none => rfl
  | some e => exact (List.append_nil e.mentions).symm

mutual

/-- A statement mentions what its parts mention. -/
lemma mentions_eq : ∀ s : Stmt, s.mentions = s.parts.flatMap Part.mentions
  | empty _ => rfl
  | expression expr _ => (List.append_nil expr.mentions).symm
  | block statements _ => allMentions_eq statements
  | choice condition thenBranch elseBranch _ => by
    rw [mentions, mentions_eq thenBranch, branchMentions_eq elseBranch, parts, List.flatMap_cons,
      List.flatMap_append]
    rfl
  | loop start condition increment body _ => by
    rw [mentions, branchMentions_eq start, optional_mentions, optional_mentions, mentions_eq body, parts]
    simp only [List.flatMap_append]
  | declare declarators _ => declarators_mentions declarators
  | giveBack value _ => optional_mentions value

lemma branchMentions_eq : ∀ branch : Option Stmt,
    branchMentions branch = (branchParts branch).flatMap Part.mentions
  | none => rfl
  | some other => mentions_eq other

lemma allMentions_eq : ∀ statements : List Stmt,
    allMentions statements = (allParts statements).flatMap Part.mentions
  | [] => rfl
  | s :: rest => by
    rw [allMentions, mentions_eq s, allMentions_eq rest, allParts, List.flatMap_append]

end
end Stmt

namespace Script

/-- The parts of the statements of a script. -/
def parts (s : Script) : List Part :=
  Stmt.allParts s.trees

/-- The declarators of a script. -/
def declarators (s : Script) : List Declarator :=
  s.parts.filterMap Part.declarator?

/-- What the statements of a script mention. -/
def mentions (s : Script) : List Mention :=
  Stmt.allMentions s.trees

/-- The variables that occur in a script. -/
def variableNames (s : Script) : List String :=
  s.mentions.filterMap Mention.variableName?

/-- The variables that a script assigns, steps or declares. -/
def targets (s : Script) : List String :=
  s.mentions.filterMap Mention.target?

end Script
end ScriptEngine
