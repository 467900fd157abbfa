import ScriptEngine.Proofs.Tree.Guard
import ScriptEngine.Proofs.Tree.Levels

/-!
# The nesting limit is exact

The parser of scripts is the parser that counts its levels, with the limit `nestingLimit`
(`Counted`, `Levels`).  Beside it runs the same parser without a limit: it does the same as long as
it enters nothing beyond the limit, and the parser with the limit fails in front of the first thing
that lies beyond (`Parse.LimitExact`).  So the trees that are returned are those that stay within the
limit, and the counter is always back where it was.

Fuel stands in for the recursion of the parser without a limit.  No statement or expression of a
script nests deeper than the script is long, so with more fuel than that it never runs out
(`Parse.Unbounded`).
-/

namespace ScriptEngine
namespace Parse

variable {α : Type} {level : α → Nat}

/-! ## With a limit and without -/

section

variable {τ : Type} {free limited : Parse (Counted τ) α} {p : Parser (Counted τ)}

/-- How the parser with the limit compares with the one without, from one state on. -/
structure LimitExact (level : α → Nat) (free limited : Parse (Counted τ) α)
    (p : Parser (Counted τ)) : Prop where
  /-- They are the same until something beyond the limit would be entered, and that is refused. -/
  compares : ∃ entered, (endOf (free p)).tokens.entries = entered ++ p.tokens.entries ∧
    ((∀ e ∈ entered, e.level ≤ nestingLimit) → limited p = free p) ∧
    ∀ e, Entry.firstBeyond nestingLimit entered = some e →
      e.level = nestingLimit + 1 ∧ ∃ q, limited p = .error e.refused q
  /-- The trees that are returned with the limit are those that stay within it. -/
  returned (a : α) (p' : Parser (Counted τ)) :
    limited p = .ok a p' ↔ free p = .ok a p' ∧ p.tokens.depth + level a ≤ nestingLimit
  limited_back : (endOf (limited p)).tokens.depth = p.tokens.depth
  free_back : (endOf (free p)).tokens.depth = p.tokens.depth

lemma Follows.limitExact
    (follows : Follows nestingLimit p.tokens.depth free limited fun a n => n = level a)
    (within : p.tokens.depth ≤ nestingLimit) : LimitExact level free limited p := by
  obtain ⟨entered, h⟩ := follows p rfl
  have beyond_level : max nestingLimit p.tokens.depth + 1 = nestingLimit + 1 := by
    rw [Nat.max_eq_left within]
  refine ⟨⟨entered, h.entries, fun none_beyond => ?_, fun e beyond => ?_⟩, fun a p' => ⟨?_, ?_⟩, ?_,
    h.back⟩
  · exact h.same (Entry.firstBeyond_eq_none.2 none_beyond)
  · obtain ⟨deep, q, refused, -⟩ := h.stopped e beyond
    exact ⟨deep.trans beyond_level, q, refused⟩
  -- A parser with the limit returns nothing once an entry lies beyond it, so what it returns is
  -- what the other does.
  · intro returned
    cases beyond : Entry.firstBeyond nestingLimit entered with
    | some e =>
      obtain ⟨-, q, refused, -⟩ := h.stopped e beyond
      rw [refused] at returned
      cases returned
    | none =>
      have run : free p = .ok a p' := (h.same beyond).symm.trans returned
      obtain ⟨n, deepest, rfl⟩ := h.reached a p' run
      rw [← deepest]
      exact ⟨run, Entry.deepest_le_iff.2 ⟨within, Entry.firstBeyond_eq_none.1 beyond⟩⟩
  · rintro ⟨run, shallow⟩
    obtain ⟨n, deepest, rfl⟩ := h.reached a p' run
    rw [← deepest] at shallow
    exact (h.same (Entry.firstBeyond_eq_none.2 (Entry.deepest_le_iff.1 shallow).2)).trans run
  · cases beyond : Entry.firstBeyond nestingLimit entered with
    | some e =>
      obtain ⟨-, q, refused, back⟩ := h.stopped e beyond
      rw [refused]
      exact back
    | none =>
      rw [h.same beyond]
      exact h.back

/-- More fuel does not change what a parser does, and it does not fail for want of levels. -/
structure Unbounded (free : Nat → Parse (Counted τ) α) (fuel : Nat) (p : Parser (Counted τ)) :
    Prop where
  same (fuel' : Nat) : fuel ≤ fuel' → free fuel' p = free fuel p
  shallow (e : ScriptError) (p' : Parser (Counted τ)) :
    free fuel p = .error e p' → e.fault ≠ .grammar .tooDeep

/-- A parser without a limit is unbounded if, with a limit, it would not come to it. -/
lemma Unbounded.of_follows {free : Nat → Parse (Counted τ) α} {fuel limit : Nat}
    {reaches : α → Nat → Prop}
    (follows : ∀ fuel', fuel ≤ fuel' →
      Follows limit p.tokens.depth (free fuel') limited reaches)
    (shallow : ∀ e p', limited p = .error e p' → e.fault ≠ .grammar .tooDeep) :
    Unbounded free fuel p := by
  have same (fuel' : Nat) (le : fuel ≤ fuel') : limited p = free fuel' p := by
    obtain ⟨entered, h⟩ := follows fuel' le p rfl
    refine h.same (Option.eq_none_iff_forall_ne_some.2 fun e beyond => ?_)
    obtain ⟨-, q, refused, -⟩ := h.stopped e beyond
    exact shallow _ q refused rfl
  refine ⟨fun fuel' le => (same fuel' le).symm.trans (same fuel (Nat.le_refl _)), ?_⟩
  rw [← same fuel (Nat.le_refl _)]
  exact shallow

end

/-! ## In a script -/

variable {text : List Char} {r fuel room : Nat} {p p' : Parser (Counted Lexer)} {ss : List Stmt}

lemma withoutCounter_eq_error {r : EStateM.Result ScriptError (Parser (Counted Lexer)) α}
    {e : ScriptError} (failed : r = .error e p') : withoutCounter r = .error e p'.plain := by
  rw [failed]
  rfl

lemma unbounded_expression (sound : p.plain.tokens.Sound text) (le : p.plain.tokens.left ≤ r)
    (enough : r + 1 < fuel) : Unbounded (countedExpression none) fuel p := by
  have follows (fuel' : Nat) (le : fuel ≤ fuel') : Follows (p.tokens.depth + (r + 1))
      p.tokens.depth (countedExpression (τ := Lexer) none fuel')
      (countedExpression (some (p.tokens.depth + (r + 1))) (r + 2)) _ :=
    countedExpression_follows (by omega) (by omega)
  refine .of_follows follows fun e p' failed deep => ?_
  have counted : withoutCounter (countedExpression (some (p.tokens.depth + (r + 1))) (r + 2) p) =
      expression (r + 1) p.plain := (expression_counted rfl (Nat.lt_succ_self _) rfl).1
  have orderly : MeetsExpressions 0 (r + 1) (expression (r + 1)) (expression (r + 1)) :=
    expression_meets (r + 1)
  have meets := orderly text p.plain.attempts 0 r p.plain ⟨sound, rfl, Nat.zero_le _, le⟩
  rw [← counted, withoutCounter_eq_error failed] at meets
  have := meets.2.room deep
  omega

lemma unbounded_topLevel (between : p.plain.Between text r) (enough : r + 2 < fuel) :
    Unbounded (countedTopLevel none) fuel p := by
  have follows (fuel' : Nat) (le : fuel ≤ fuel') : Follows (p.tokens.depth + (r + 2))
      p.tokens.depth (countedTopLevel (τ := Lexer) none fuel')
      (countedTopLevel (some (p.tokens.depth + (r + 2))) (r + 3)) _ :=
    countedTopLevel_follows (by omega) (by omega)
  refine .of_follows follows fun e p' failed deep => ?_
  have counted : withoutCounter (countedTopLevel (some (p.tokens.depth + (r + 2))) (r + 3) p) =
      topLevel (r + 2) p.plain := (topLevel_counted rfl (Nat.lt_succ_self _) rfl).1
  rw [withoutCounter_eq_error failed] at counted
  have := (topLevel_halted between counted.symm).room deep
  omega

/-- The parser with the limit that programs have. -/
def bounded : Parse (Counted Lexer) (Option Stmt) :=
  countedTopLevel (some nestingLimit) (nestingLimit + 1)

/-- It is the parser of scripts. -/
lemma withoutCounter_bounded (top : p.tokens.depth = 0) :
    withoutCounter (bounded p) = topLevel nestingLimit p.plain :=
  (topLevel_counted (Nat.zero_add _) (Nat.lt_succ_self _) top).1

lemma topLevel_limitExact (enough : nestingLimit < fuel) (top : p.tokens.depth = 0) :
    LimitExact Stmt.branchLevel (countedTopLevel none fuel) bounded p :=
  (countedTopLevel_follows (by omega) enough).limitExact (top ▸ Nat.zero_le _)

lemma expression_limitExact (enough : nestingLimit < fuel)
    (within : p.tokens.depth ≤ nestingLimit) :
    LimitExact Expr.depth (countedExpression none fuel)
      (countedExpression (some nestingLimit) (nestingLimit + 1)) p :=
  (countedExpression_follows (by omega) enough).limitExact within

/-- A call that reads a statement leads from the top level back to it. -/
lemma bounded_between {s : Stmt} (between : p.plain.Between text r) (top : p.tokens.depth = 0)
    (first : bounded p = .ok (some s) p') : p'.plain.Between text r ∧ p'.tokens.depth = 0 := by
  have plain := withoutCounter_bounded top
  rw [first] at plain
  have back : (endOf (bounded p)).tokens.depth = p.tokens.depth :=
    (topLevel_limitExact (Nat.lt_succ_self _) top).limited_back
  rw [first] at back
  exact ⟨(topLevel_between between plain.symm).1, back.trans top⟩

lemma Calls.bounded_between (calls : Calls bounded ss p p') (between : p.plain.Between text r)
    (top : p.tokens.depth = 0) : p'.plain.Between text r ∧ p'.tokens.depth = 0 := by
  induction calls with
  | none p => exact ⟨between, top⟩
  | further first _ ih =>
    obtain ⟨between', top'⟩ := Parse.bounded_between between top first
    exact ih between' top'

/-- With the limit and without, the same calls read the same statements, as long as these stay within
the limit. -/
lemma calls_bounded_iff (enough : nestingLimit < fuel) (between : p.plain.Between text r)
    (top : p.tokens.depth = 0) : Calls bounded ss p p' ↔
      Calls (countedTopLevel none fuel) ss p p' ∧ ∀ s ∈ ss, s.level ≤ nestingLimit := by
  constructor
  · intro calls
    induction calls with
    | none p => exact ⟨.none p, by simp⟩
    | further first _ ih =>
      obtain ⟨run, shallow⟩ := ((topLevel_limitExact enough top).returned _ _).1 first
      obtain ⟨between', top'⟩ := Parse.bounded_between between top first
      obtain ⟨rest, all⟩ := ih between' top'
      rw [top, Nat.zero_add] at shallow
      exact ⟨.further run rest, List.forall_mem_cons.2 ⟨shallow, all⟩⟩
  · rintro ⟨calls, all⟩
    induction calls with
    | none p => exact .none p
    | further run _ ih =>
      obtain ⟨shallow, all⟩ := List.forall_mem_cons.1 all
      have first := ((topLevel_limitExact enough top).returned _ _).2
        ⟨run, by rwa [top, Nat.zero_add]⟩
      obtain ⟨between', top'⟩ := Parse.bounded_between between top first
      exact .further first (ih between' top' all)

/-- With the limit, a script is read as without one as long as nothing nests deeper than the limit,
and the first statement or expression beyond it is refused.  After each call the counter is back
where it was. -/
theorem nesting_limit_exact (script : String) (enough : script.length + nestingLimit < fuel) :
    (∀ ss p, Calls bounded ss ((Parser.ofStream (Lexer.ofScript script)).counted 0 []) p ↔
      Calls (countedTopLevel none fuel) ss
          ((Parser.ofStream (Lexer.ofScript script)).counted 0 []) p ∧
        ∀ s ∈ ss, s.level ≤ nestingLimit) ∧
    (∀ ss p, Calls bounded ss ((Parser.ofStream (Lexer.ofScript script)).counted 0 []) p →
      withoutCounter (bounded p) = topLevel nestingLimit p.plain ∧
        LimitExact Stmt.branchLevel (countedTopLevel none fuel) bounded p ∧
        Unbounded (countedTopLevel none) fuel p) ∧
    (∀ (p : Parser (Counted Lexer)) (room : Nat), p.plain.tokens.Sound script.toList →
      p.tokens.depth + room = nestingLimit →
      withoutCounter (countedExpression (some nestingLimit) (nestingLimit + 1) p) =
          expression room p.plain ∧
        LimitExact Expr.depth (countedExpression none fuel)
          (countedExpression (some nestingLimit) (nestingLimit + 1)) p ∧
        Unbounded (countedExpression none) fuel p) ∧
    nestingLimit = 64 ∧
    ∀ e : Entry, e.refused.fault.message = "Nesting too deep" ∧
      e.refused.span = .single e.position e.line := by
  have start : ((Parser.ofStream (Lexer.ofScript script)).counted 0 []).plain.Between
      script.toList script.toList.length := Parser.between_ofScript script
  have length : script.toList.length = script.length := String.length_toList
  have limit : nestingLimit = 64 := rfl
  refine ⟨fun ss p => calls_bounded_iff (by omega) start rfl, fun ss p calls => ?_,
    fun p room sound filled => ?_, limit, fun e => ⟨rfl, rfl⟩⟩
  · obtain ⟨between, top⟩ := calls.bounded_between start rfl
    exact ⟨withoutCounter_bounded top, topLevel_limitExact (by omega) top,
      unbounded_topLevel between (by omega)⟩
  · exact ⟨(expression_counted filled (by omega) rfl).1, expression_limitExact (by omega) (by omega),
      unbounded_expression sound sound.left_le (by omega)⟩

/-- A number in so many parentheses. -/
def groupedNumber (groups : Nat) : String :=
  String.ofList (List.replicate groups '(' ++ '1' :: List.replicate groups ')')

/-- A number in 62 parentheses stays within the limit and is read, in 63 it does not and is not. -/
theorem nesting_limit_exact_groupedNumber :
    (groupedNumber 63).length + nestingLimit < 256 ∧
    (∃ s p, Calls bounded [s]
        ((Parser.ofStream (Lexer.ofScript (groupedNumber 62))).counted 0 []) p ∧ s.level = 64) ∧
    ∃ s p, s.level = 65 ∧ Calls (countedTopLevel none 256) [s]
        ((Parser.ofStream (Lexer.ofScript (groupedNumber 63))).counted 0 []) p ∧
      ¬ Calls bounded [s] ((Parser.ofStream (Lexer.ofScript (groupedNumber 63))).counted 0 []) p := by
  have enough : (groupedNumber 63).length + nestingLimit < 256 := by decide +kernel
  have fewer : (groupedNumber 62).length + nestingLimit < 256 := by decide +kernel
  have within : (value? (countedTopLevel none 256)
      ((Parser.ofStream (Lexer.ofScript (groupedNumber 62))).counted 0 [])).any
        (·.any (·.level = 64)) := by
    decide +kernel
  have beyond : (value? (countedTopLevel none 256)
      ((Parser.ofStream (Lexer.ofScript (groupedNumber 63))).counted 0 [])).any
        (·.any (·.level = 65)) := by
    decide +kernel
  obtain ⟨_, read, found⟩ := (Option.any_eq_true _ _).1 within
  obtain ⟨s, rfl, level⟩ := (Option.any_eq_true _ _).1 found
  obtain ⟨p, run⟩ := value?_eq_some.1 read
  obtain ⟨_, read', found'⟩ := (Option.any_eq_true _ _).1 beyond
  obtain ⟨s', rfl, level'⟩ := (Option.any_eq_true _ _).1 found'
  obtain ⟨p', run'⟩ := value?_eq_some.1 read'
  have level : s.level = 64 := by simpa using level
  have level' : s'.level = 65 := by simpa using level'
  refine ⟨enough, ⟨s, p, ?_, level⟩, s', p', level', .further run' (.none p'), fun calls => ?_⟩
  · refine ((nesting_limit_exact (groupedNumber 62) fewer).1 [s] p).2 ⟨.further run (.none p), ?_⟩
    simp [level, nestingLimit]
  · have shallow := (((nesting_limit_exact (groupedNumber 63) enough).1 [s'] p').1 calls).2
    simp [level', nestingLimit] at shallow

end Parse
end ScriptEngine
