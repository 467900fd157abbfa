import ScriptEngine.Machine

/-!
# Runs

A run is a computation on a machine.  It may fail with a script error, and it changes the machine
whether it does or not.  A run may also not come to an end within the rounds that it is given; then
it has no outcome at all.
-/

namespace ScriptEngine

/-- A computation on a machine; `none` when it is cut short. -/
def Run (ν σ α : Type) : Type :=
  Machine ν σ → Option (Except ScriptError α × Machine ν σ)

namespace Run

variable {ν σ α β : Type}

@[always_inline, inline] protected def pure (a : α) : Run ν σ α := fun m =>
  some (.ok a, m)

@[always_inline, inline] protected def bind (x : Run ν σ α) (f : α → Run ν σ β) : Run ν σ β :=
  fun m =>
    match x m with
    | none => none
    | some (.error e, m) => some (.error e, m)
    | some (.ok a, m) => f a m

instance : Monad (Run ν σ) where
  pure := Run.pure
  bind := Run.bind

instance : LawfulMonad (Run ν σ) :=
  have id_map : ∀ {α : Type} (x : Run ν σ α), id <$> x = x := fun x => funext fun m => by
    simp only [Functor.map, Run.bind]
    rcases x m with _ | ⟨_ | _, _⟩ <;> rfl
  have bind_assoc : ∀ {α β γ : Type} (x : Run ν σ α) (f : α → Run ν σ β) (g : β → Run ν σ γ),
      x >>= f >>= g = x >>= fun a => f a >>= g := fun x _ _ => funext fun m => by
    simp only [bind, Run.bind]
    rcases x m with _ | ⟨_ | _, _⟩ <;> rfl
  LawfulMonad.mk' (Run ν σ) id_map (fun _ _ => rfl) bind_assoc

/-- A run that is cut short. -/
def cutShort : Run ν σ α := fun _ =>
  none

/-- A run that fails and leaves the machine as it is. -/
def throw (e : ScriptError) : Run ν σ α := fun m =>
  some (.error e, m)

def fail (span : Span) (fault : RuntimeFault) : Run ν σ α :=
  throw ⟨.runtime fault, span⟩

def modify (f : Machine ν σ → Machine ν σ) : Run ν σ Unit := fun m =>
  some (.ok (), f m)

/-- Runs `x` if `condition` holds. -/
def onlyIf (condition : Bool) (x : Run ν σ Unit) : Run ν σ Unit :=
  if condition then x else Run.pure ()

/-- The result of applying an operator to operands found at `span`. -/
def ofOperator (span : Span) : Except OperatorFault String → Run ν σ String
  | .ok value => Run.pure value
  | .error fault => fail span (.operator fault)

/-! ## What runs do -/

variable {m m' m₁ : Machine ν σ}

/-- Two runs succeed when the first does and the second does from there. -/
theorem bind_eq_ok {x : Run ν σ α} {f : α → Run ν σ β} {b : β} :
    (x >>= f) m = some (.ok b, m') ↔
      ∃ a m₁, x m = some (.ok a, m₁) ∧ f a m₁ = some (.ok b, m') := by
  simp only [Bind.bind, Run.bind]
  rcases x m with _ | ⟨e | a, m₁⟩
  · simp
  · simp
  · exact ⟨fun h => ⟨a, m₁, rfl, h⟩, by rintro ⟨_, _, ⟨⟩, h⟩; exact h⟩

theorem bind_of_ok {x : Run ν σ α} {a : α} (h : x m = some (.ok a, m₁)) (f : α → Run ν σ β) :
    (x >>= f) m = f a m₁ := by
  simp only [Bind.bind, Run.bind, h]

theorem bind_of_error {x : Run ν σ α} {e : ScriptError} (h : x m = some (.error e, m₁))
    (f : α → Run ν σ β) : (x >>= f) m = some (.error e, m₁) := by
  simp only [Bind.bind, Run.bind, h]

/-- Two runs come to an end when the first fails, or when it succeeds and the second comes to an end
from there. -/
theorem bind_eq_some {x : Run ν σ α} {f : α → Run ν σ β} {outcome : Except ScriptError β}
    (h : (x >>= f) m = some (outcome, m')) :
    (∃ e, x m = some (.error e, m') ∧ outcome = .error e) ∨
      ∃ a m₁, x m = some (.ok a, m₁) ∧ f a m₁ = some (outcome, m') := by
  simp only [Bind.bind, Run.bind] at h
  rcases done : x m with _ | ⟨e | a, m₁⟩ <;> simp only [done] at h
  · cases h
  · cases h
    exact .inl ⟨e, rfl, rfl⟩
  · exact .inr ⟨a, m₁, rfl, h⟩

theorem pure_eq_ok {a b : α} : (Pure.pure a : Run ν σ α) m = some (.ok b, m') ↔ a = b ∧ m = m' := by
  simp [Pure.pure, Run.pure]

end Run
end ScriptEngine
