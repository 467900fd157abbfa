/-!
# Spans

A span names the characters of a script that a token or a construct covers, together with the
line on which it starts.  Positions count characters from 0 and lines count from 1.

`Span.through` is how the span of a construct is put together from the spans of its first and last
parts; `start_through`, `line_through` and `stop_le_stop_through` are the facts about it that
nesting needs.
-/

namespace ScriptEngine

/-- The characters from `start` up to but not including `stop`, starting on line `line`. -/
structure Span where
  start : Nat
  stop : Nat
  line : Nat
deriving DecidableEq, Repr, Inhabited

namespace Span

/-- The span of the one character at `position`. -/
def single (position line : Nat) : Span :=
  ⟨position, position + 1, line⟩

/-- The empty span at `position`. -/
def empty (position line : Nat) : Span :=
  ⟨position, position, line⟩

/-- The span from the start of the first span to the end of whichever ends last. -/
def through (first last : Span) : Span :=
  ⟨first.start, max last.stop first.stop, first.line⟩

@[simp] theorem start_through (a b : Span) : (a.through b).start = a.start := rfl

@[simp] theorem line_through (a b : Span) : (a.through b).line = a.line := rfl

@[simp] theorem stop_through (a b : Span) : (a.through b).stop = max b.stop a.stop := rfl

theorem stop_le_stop_through (a b : Span) : a.stop ≤ (a.through b).stop := by
  simp only [stop_through]
  omega

end Span
end ScriptEngine
