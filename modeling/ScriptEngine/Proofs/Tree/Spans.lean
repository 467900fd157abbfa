import ScriptEngine.Proofs.Tree.Outline

/-!
# Trees with other spans

`mapSpan f` changes the spans of a tree and nothing else.  Trees are compared without their spans
through `Expr.bare`, and a tree that stands elsewhere in a script is the same tree with its spans
moved.  A change that leaves all spans of a tree alone leaves the tree alone (`Expr.mapSpan_eq_self`,
`Stmt.mapSpan_eq_self`).
-/

namespace ScriptEngine
namespace Expr

mutual

/-- The tree with `f` applied to every span. -/
def mapSpan (f : Span → Span) : Expr → Expr
  | empty span => empty (f span)
  | literal value span => literal value (f span)
  | read name span => read name (f span)
  | assign name value span => assign name (mapSpan f value) (f span)
  | step name op span => step name op (f span)
  | chain first rest span => chain (mapSpan f first) (mapLinkSpans f rest) (f span)
  | connect left op right span => connect (mapSpan f left) op (mapSpan f right) (f span)
  | call name args span => call name (mapSpans f args) (f span)
  | grouping inner span => grouping (mapSpan f inner) (f span)

def mapLinkSpans (f : Span → Span) : List (Operator × Expr) → List (Operator × Expr)
  | [] => []
  | (op, operand) :: rest => (op, mapSpan f operand) :: mapLinkSpans f rest

def mapSpans (f : Span → Span) : List Expr → List Expr
  | [] => []
  | e :: rest => mapSpan f e :: mapSpans f rest

end

/-- The tree without its places. -/
def bare (e : Expr) : Expr :=
  e.mapSpan fun _ => default

@[simp] lemma span_mapSpan (f : Span → Span) (e : Expr) : (e.mapSpan f).span = f e.span := by
  cases e <;> simp [mapSpan, span]

@[simp] lemma mapLinkSpans_append (f : Span → Span) (xs ys : List (Operator × Expr)) :
    mapLinkSpans f (xs ++ ys) = mapLinkSpans f xs ++ mapLinkSpans f ys := by
  induction xs with
  | nil => rfl
  | cons x xs ih => simp [mapLinkSpans, ih]

lemma mapLinkSpans_eq_map (f : Span → Span) (rest : List (Operator × Expr)) :
    mapLinkSpans f rest = rest.map fun link => (link.1, link.2.mapSpan f) := by
  induction rest with
  | nil => rfl
  | cons link rest ih => rw [mapLinkSpans, ih, List.map_cons]

lemma mapSpans_eq_map (f : Span → Span) (es : List Expr) :
    mapSpans f es = es.map (mapSpan f) := by
  induction es with
  | nil => rfl
  | cons e rest ih => rw [mapSpans, ih, List.map_cons]

mutual

/-- Spans that are left alone do not change the tree. -/
lemma mapSpan_eq_self {f : Span → Span} : ∀ e : Expr, e.outline.All (fun span => f span = span) →
    e.mapSpan f = e
  | empty _, kept => congrArg empty kept.here
  | literal value _, kept => congrArg (literal value) kept.here
  | read name _, kept => congrArg (read name) kept.here
  | step name op _, kept => congrArg (step name op) kept.here
  | assign _ value _, kept => by
    rw [mapSpan, kept.here, mapSpan_eq_self value (kept.inside _ List.mem_cons_self)]
  | chain first rest _, kept => by
    rw [mapSpan, kept.here, mapSpan_eq_self first (kept.inside _ List.mem_cons_self),
      mapLinkSpans_eq_self rest fun o mem => kept.inside o (List.mem_cons_of_mem _ mem)]
  | connect left _ right _, kept => by
    rw [mapSpan, kept.here, mapSpan_eq_self left (kept.inside _ List.mem_cons_self),
      mapSpan_eq_self right (kept.inside _ (List.mem_cons_of_mem _ List.mem_cons_self))]
  | call _ args _, kept => by
    rw [mapSpan, kept.here, mapSpans_eq_self args kept.inside]
  | grouping inner _, kept => by
    rw [mapSpan, kept.here, mapSpan_eq_self inner (kept.inside _ List.mem_cons_self)]

lemma mapLinkSpans_eq_self {f : Span → Span} : ∀ rest : List (Operator × Expr),
    (∀ o ∈ linkOutlines rest, o.All fun span => f span = span) → mapLinkSpans f rest = rest
  | [], _ => rfl
  | (op, operand) :: rest, kept => by
    rw [mapLinkSpans, mapSpan_eq_self operand (kept _ List.mem_cons_self),
      mapLinkSpans_eq_self rest fun o mem => kept o (List.mem_cons_of_mem _ mem)]

lemma mapSpans_eq_self {f : Span → Span} : ∀ es : List Expr,
    (∀ o ∈ outlines es, o.All fun span => f span = span) → mapSpans f es = es
  | [], _ => rfl
  | e :: rest, kept => by
    rw [mapSpans, mapSpan_eq_self e (kept _ List.mem_cons_self),
      mapSpans_eq_self rest fun o mem => kept o (List.mem_cons_of_mem _ mem)]

end

lemma mapSpan_id (e : Expr) : e.mapSpan id = e :=
  mapSpan_eq_self e (.of_forall (fun _ => rfl) _)

lemma mapSpans_id (es : List Expr) : mapSpans id es = es :=
  mapSpans_eq_self es fun o _ => .of_forall (fun _ => rfl) o

lemma map_mapSpan_eq_self {f : Span → Span} (e : Option Expr)
    (kept : ∀ o ∈ optionOutline e, o.All fun span => f span = span) : e.map (mapSpan f) = e := by
  cases e with
  | none => rfl
  | some e => exact congrArg some (mapSpan_eq_self e (kept _ List.mem_cons_self))

end Expr

namespace Declarator

def mapSpan (f : Span → Span) (d : Declarator) : Declarator :=
  ⟨d.name, d.initializer.map (Expr.mapSpan f), f d.span⟩

@[simp] lemma name_mapSpan (f : Span → Span) (d : Declarator) :
    (d.mapSpan f).name = d.name := rfl

lemma mapSpan_eq_self {f : Span → Span} (d : Declarator)
    (kept : d.outline.All fun span => f span = span) : d.mapSpan f = d := by
  obtain ⟨name, initializer, span⟩ := d
  rw [mapSpan, kept.here, Expr.map_mapSpan_eq_self initializer kept.inside]

lemma mapSpan_id (d : Declarator) : d.mapSpan id = d :=
  mapSpan_eq_self d (.of_forall (fun _ => rfl) _)

lemma map_mapSpan_eq_self {f : Span → Span} (ds : List Declarator)
    (kept : ∀ o ∈ ds.map outline, o.All fun span => f span = span) : ds.map (mapSpan f) = ds := by
  induction ds with
  | nil => rfl
  | cons d ds ih =>
    rw [List.map_cons, mapSpan_eq_self d (kept _ List.mem_cons_self),
      ih fun o mem => kept o (List.mem_cons_of_mem _ mem)]

end Declarator

namespace Stmt

mutual

/-- The statement with `f` applied to every span. -/
def mapSpan (f : Span → Span) : Stmt → Stmt
  | empty span => empty (f span)
  | expression expr span => expression (expr.mapSpan f) (f span)
  | block statements span => block (mapSpans f statements) (f span)
  | choice condition thenBranch elseBranch span =>
    choice (condition.mapSpan f) (mapSpan f thenBranch) (mapBranchSpan f elseBranch) (f span)
  | loop start condition increment body span =>
    loop (mapBranchSpan f start) (condition.map (Expr.mapSpan f))
      (increment.map (Expr.mapSpan f)) (mapSpan f body) (f span)
  | declare declarators span => declare (declarators.map (Declarator.mapSpan f)) (f span)
  | giveBack value span => giveBack (value.map (Expr.mapSpan f)) (f span)

def mapBranchSpan (f : Span → Span) : Option Stmt → Option Stmt
  | none => none
  | some other => some (mapSpan f other)

def mapSpans (f : Span → Span) : List Stmt → List Stmt
  | [] => []
  | s :: rest => mapSpan f s :: mapSpans f rest

end

@[simp] lemma span_mapSpan (f : Span → Span) (s : Stmt) : (s.mapSpan f).span = f s.span := by
  cases s <;> simp [mapSpan, span]

lemma mapSpans_eq_map (f : Span → Span) (statements : List Stmt) :
    mapSpans f statements = statements.map (mapSpan f) := by
  induction statements with
  | nil => rfl
  | cons s rest ih => rw [mapSpans, ih, List.map_cons]

lemma mapBranchSpan_eq_map (f : Span → Span) (other : Option Stmt) :
    mapBranchSpan f other = other.map (mapSpan f) := by
  cases other <;> rfl

mutual

lemma mapSpan_eq_self {f : Span → Span} : ∀ s : Stmt, s.outline.All (fun span => f span = span) →
    s.mapSpan f = s
  | empty _, kept => congrArg empty kept.here
  | expression expr _, kept => by
    rw [mapSpan, kept.here, expr.mapSpan_eq_self (kept.inside _ List.mem_cons_self)]
  | block statements _, kept => by
    rw [mapSpan, kept.here, mapSpans_eq_self statements kept.inside]
  | choice condition thenBranch elseBranch _, kept => by
    rw [mapSpan, kept.here, condition.mapSpan_eq_self (kept.inside _ List.mem_cons_self),
      mapSpan_eq_self thenBranch (kept.inside _ (List.mem_cons_of_mem _ List.mem_cons_self)),
      mapBranchSpan_eq_self elseBranch fun o mem =>
        kept.inside o (List.mem_cons_of_mem _ (List.mem_cons_of_mem _ mem))]
  | loop start condition increment body _, kept => by
    have inside := kept.inside
    simp only [List.forall_mem_append, List.forall_mem_singleton] at inside
    obtain ⟨starts, conditions, increments, bodies⟩ := inside
    rw [mapSpan, kept.here, mapBranchSpan_eq_self start starts,
      Expr.map_mapSpan_eq_self condition conditions, Expr.map_mapSpan_eq_self increment increments,
      mapSpan_eq_self body bodies]
  | declare ds _, kept => by
    rw [mapSpan, kept.here, Declarator.map_mapSpan_eq_self ds kept.inside]
  | giveBack value _, kept => by
    rw [mapSpan, kept.here, Expr.map_mapSpan_eq_self value kept.inside]

lemma mapBranchSpan_eq_self {f : Span → Span} : ∀ other : Option Stmt,
    (∀ o ∈ branchOutline other, o.All fun span => f span = span) → mapBranchSpan f other = other
  | none, _ => rfl
  | some other, kept => by rw [mapBranchSpan, mapSpan_eq_self other (kept _ List.mem_cons_self)]

lemma mapSpans_eq_self {f : Span → Span} : ∀ statements : List Stmt,
    (∀ o ∈ outlines statements, o.All fun span => f span = span) →
    mapSpans f statements = statements
  | [], _ => rfl
  | s :: rest, kept => by
    rw [mapSpans, mapSpan_eq_self s (kept _ List.mem_cons_self),
      mapSpans_eq_self rest fun o mem => kept o (List.mem_cons_of_mem _ mem)]

end

lemma mapSpan_id (s : Stmt) : s.mapSpan id = s :=
  mapSpan_eq_self s (.of_forall (fun _ => rfl) _)

lemma mapBranchSpan_id (other : Option Stmt) : mapBranchSpan id other = other :=
  mapBranchSpan_eq_self other fun o _ => .of_forall (fun _ => rfl) o

end Stmt

/-! ## Scripts -/

def ScriptError.mapSpan (f : Span → Span) (e : ScriptError) : ScriptError :=
  { e with span := f e.span }

namespace Script

/-- The statements of a script. -/
def trees (s : Script) : List Stmt :=
  s.statements.map Prod.fst

/-- The script with every span of its statements and of its error changed. -/
def mapSpan (f : Span → Span) (s : Script) : Script :=
  { s with
    statements := s.statements.map fun (t, line) => (t.mapSpan f, line)
    error := s.error.map (ScriptError.mapSpan f) }

@[simp] lemma trees_mapSpan (f : Span → Span) (s : Script) :
    (s.mapSpan f).trees = s.trees.map (Stmt.mapSpan f) := by
  simp [trees, mapSpan, Function.comp_def]

@[simp] lemma error_mapSpan (f : Span → Span) (s : Script) :
    (s.mapSpan f).error = s.error.map (ScriptError.mapSpan f) := rfl

lemma mapSpan_id (s : Script) : s.mapSpan id = s := by
  obtain ⟨statements, error, line⟩ := s
  have same : (fun t : Stmt × Nat => (t.1.mapSpan id, t.2)) = id :=
    funext fun t => by rw [Stmt.mapSpan_id, id]
  cases error <;> simp [mapSpan, ScriptError.mapSpan, same]

end Script

end ScriptEngine
