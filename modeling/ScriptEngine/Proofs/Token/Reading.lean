import Mathlib.Data.Set.Insert
import ScriptEngine.Token.Lexer

/-!
# Reading tokens in order

`Reads cs s ts s'` says that reading tokens from the stream `s`, one after the other and in contexts
from `cs`, gives the tokens `ts` and leads to `s'`.  Nothing is handed back on the way, so `ts`
holds each token between the two states once and in order.

A parser looks at the next token and hands it back.  `Stands cs s s'` says that `s'` is the state
`s`, except that the next token may have been looked at, and `Consumes cs s ts s'` that the tokens
`ts` have been read for good.  Consumptions compose (`Consumes.trans`): a token that was handed back
is the next one read, so none is lost and none is read twice.

The facts about a stream on which this rests are the laws of `LawfulTokenStream`; a lexer obeys
them.
-/

namespace ScriptEngine

open TokenStream

/-- A token stream that gives back what was handed back, comes nearer to its end with every token,
and restores an earlier state as it was. -/
class LawfulTokenStream (τ : Type) [TokenStream τ] : Prop where
  next_pushBack {c c' : TokenContext} {s s' : τ} {t : Token} :
    next c s = (.ok t, s') → next c' (pushBack t s') = (.ok t, s')
  remaining_next {c : TokenContext} {s s' : τ} {t : Token} :
    next c s = (.ok t, s') → t.kind ≠ .endOfInput → remaining s' < remaining s
  restore_self (s : τ) : restore s s = s
  restore_next (c : TokenContext) (s now : τ) : restore s (next c now).2 = restore s now

export LawfulTokenStream (next_pushBack remaining_next restore_self restore_next)

variable {τ : Type} [TokenStream τ]

/-- Reading from the first state, in contexts from `cs`, gives the tokens and the second state. -/
inductive Reads (cs : Set TokenContext) : τ → List Token → τ → Prop
  | nil (s : τ) : Reads cs s [] s
  | cons {c : TokenContext} {s s₁ s₂ : τ} {t : Token} {ts : List Token} (context : c ∈ cs)
      (read : next c s = (.ok t, s₁)) (rest : Reads cs s₁ ts s₂) : Reads cs s (t :: ts) s₂

namespace Reads

variable {cs ds : Set TokenContext} {c : TokenContext} {s s₁ s₂ : τ} {t : Token}
  {ts us : List Token}

lemma single (context : c ∈ cs) (read : next c s = (.ok t, s₁)) : Reads cs s [t] s₁ :=
  .cons context read (.nil s₁)

lemma append (first : Reads cs s ts s₁) (second : Reads cs s₁ us s₂) :
    Reads cs s (ts ++ us) s₂ := by
  induction first with
  | nil _ => exact second
  | cons context read _ ih => exact .cons context read (ih second)

lemma mono (h : cs ⊆ ds) (reads : Reads cs s ts s₁) : Reads ds s ts s₁ := by
  induction reads with
  | nil s => exact .nil s
  | cons context read _ ih => exact .cons (h context) read ih

lemma split (reads : Reads cs s (ts ++ us) s₂) :
    ∃ s₁, Reads cs s ts s₁ ∧ Reads cs s₁ us s₂ := by
  induction ts generalizing s with
  | nil => exact ⟨s, .nil s, reads⟩
  | cons t ts ih =>
    cases reads with
    | cons context read rest =>
      obtain ⟨s₁, front, back⟩ := ih rest
      exact ⟨s₁, .cons context read front, back⟩

/-- The stream behind one of the tokens read. -/
lemma split_behind (reads : Reads cs s (ts ++ t :: us) s₂) :
    ∃ s₁, Reads cs s (ts ++ [t]) s₁ ∧ Reads cs s₁ us s₂ :=
  split (by simpa using reads)

lemma next_eq (reads : Reads {c} s (t :: ts) s₂) :
    ∃ s₁, next c s = (.ok t, s₁) ∧ Reads {c} s₁ ts s₂ := by
  cases reads with
  | cons context read rest =>
    obtain rfl := context
    exact ⟨_, read, rest⟩

lemma next_of_single (reads : Reads {c} s [t] s₁) : next c s = (.ok t, s₁) := by
  obtain ⟨s₂, read, rest⟩ := reads.next_eq
  cases rest with
  | nil => exact read

variable [LawfulTokenStream τ]

/-- The token read last can be handed back and is read again. -/
lemma next_pushBack (reads : Reads cs s (ts ++ [t]) s₁) (c : TokenContext) :
    next c (pushBack t s₁) = (.ok t, s₁) := by
  obtain ⟨s₂, -, last⟩ := reads.split
  cases last with
  | cons _ read rest =>
    cases rest with
    | nil => exact LawfulTokenStream.next_pushBack read

/-- A token that was looked at and handed back is read again. -/
lemma pushBack (read : next c s = (.ok t, s₁)) (rest : Reads {c} s₁ ts s₂) :
    Reads {c} (TokenStream.pushBack t s₁) (t :: ts) s₂ :=
  .cons rfl (LawfulTokenStream.next_pushBack read) rest

/-- Reading leads to the same place to go back to. -/
lemma restore_eq_restore (before : τ) (reads : Reads cs s ts s₁) :
    restore before s₁ = restore before s := by
  induction reads with
  | nil => rfl
  | @cons c s _ _ _ _ context read rest ih =>
    have step := restore_next c before s
    rw [read] at step
    rw [ih, step]

/-- Going back over what has been read. -/
lemma restore_eq (reads : Reads cs s ts s₁) : restore s s₁ = s := by
  rw [reads.restore_eq_restore, restore_self]

/-- No more tokens are read than remain. -/
lemma length_add_remaining_le (reads : Reads cs s ts s₁)
    (proper : ∀ t ∈ ts, t.kind ≠ .endOfInput) : ts.length + remaining s₁ ≤ remaining s := by
  induction reads with
  | nil _ => simp
  | cons context read rest ih =>
    have nearer := remaining_next read (proper _ List.mem_cons_self)
    have := ih fun t h => proper t (List.mem_cons_of_mem _ h)
    simp only [List.length_cons]
    omega

end Reads

/-- The second state is the first, except that its next token may have been looked at and handed
back. -/
inductive Stands (cs : Set TokenContext) : τ → τ → Prop
  | same (s : τ) : Stands cs s s
  | looked {c : TokenContext} {s s₁ : τ} {t : Token} (context : c ∈ cs)
      (read : next c s = (.ok t, s₁)) : Stands cs s (pushBack t s₁)

/-- The tokens have been read for good, and perhaps one more looked at. -/
def Consumes (cs : Set TokenContext) (s : τ) (ts : List Token) (s' : τ) : Prop :=
  ∃ mid, Reads cs s ts mid ∧ Stands cs mid s'

namespace Consumes

variable {cs ds : Set TokenContext} {c : TokenContext} {s s₁ s₂ : τ} {t : Token}
  {ts us : List Token}

lemma refl (s : τ) : Consumes cs s [] s :=
  ⟨s, .nil s, .same s⟩

lemma single (context : c ∈ cs) (read : next c s = (.ok t, s₁)) : Consumes cs s [t] s₁ :=
  ⟨s₁, .single context read, .same s₁⟩

/-- Looking at a token consumes nothing. -/
lemma looked (context : c ∈ cs) (read : next c s = (.ok t, s₁)) :
    Consumes cs s [] (pushBack t s₁) :=
  ⟨s, .nil s, .looked context read⟩

lemma mono (h : cs ⊆ ds) (consumes : Consumes cs s ts s₁) : Consumes ds s ts s₁ := by
  obtain ⟨mid, reads, stands⟩ := consumes
  refine ⟨mid, reads.mono h, ?_⟩
  cases stands with
  | same => exact .same _
  | looked context read => exact .looked (h context) read

/-- The token that comes next, whatever the context, is the first one consumed. -/
lemma head_eq {u : Token} (awaited : ∀ c, ∃ s', TokenStream.next c s = (.ok t, s'))
    (consumes : Consumes cs s (u :: us) s₂) : u = t := by
  obtain ⟨mid, reads, -⟩ := consumes
  cases reads with
  | @cons c _ _ _ _ _ context read rest =>
    obtain ⟨s', read'⟩ := awaited c
    rw [read] at read'
    simpa using congrArg Prod.fst read'

variable [LawfulTokenStream τ]

/-- Reading on from a state whose next token was looked at is reading on from the state itself. -/
lemma of_stands_reads (stands : Stands cs s s₁) (reads : Reads cs s₁ ts s₂) :
    Consumes cs s ts s₂ := by
  cases stands with
  | same => exact ⟨s₂, reads, .same s₂⟩
  | looked context read =>
    cases reads with
    | nil => exact .looked context read
    | cons _ again rest =>
      rw [next_pushBack read] at again
      obtain ⟨rfl, rfl⟩ : _ = _ ∧ _ = _ := by simpa using again
      exact ⟨s₂, .cons context read rest, .same s₂⟩

lemma trans (first : Consumes cs s ts s₁) (second : Consumes cs s₁ us s₂) :
    Consumes cs s (ts ++ us) s₂ := by
  obtain ⟨mid, reads, stands⟩ := first
  obtain ⟨mid', reads', stands'⟩ := second
  obtain ⟨between, onward, stands⟩ := of_stands_reads stands reads'
  cases stands with
  | same => exact ⟨mid', reads.append onward, stands'⟩
  | looked context read =>
    refine ⟨between, reads.append onward, ?_⟩
    cases stands' with
    | same => exact .looked context read
    | looked _ again =>
      rw [next_pushBack read] at again
      obtain ⟨rfl, rfl⟩ : _ = _ ∧ _ = _ := by simpa using again
      exact .looked context read

end Consumes

/-- The tokens have been read for good, and the token `t` behind them looked at. -/
def ReadsUpTo (cs : Set TokenContext) (s : τ) (ts : List Token) (t : Token) (s' : τ) : Prop :=
  ∃ mid, Reads cs s ts mid ∧ ∃ c ∈ cs, ∃ s₁, next c mid = (.ok t, s₁) ∧ s' = pushBack t s₁

namespace ReadsUpTo

variable {cs ds : Set TokenContext} {c : TokenContext} {s s₁ s₂ : τ} {t : Token}
  {ts us : List Token}

lemma looked (context : c ∈ cs) (read : next c s = (.ok t, s₁)) :
    ReadsUpTo cs s [] t (pushBack t s₁) :=
  ⟨s, .nil s, c, context, s₁, read, rfl⟩

lemma consumes (h : ReadsUpTo cs s ts t s₁) : Consumes cs s ts s₁ := by
  obtain ⟨mid, reads, c, context, s₂, read, rfl⟩ := h
  exact ⟨mid, reads, .looked context read⟩

variable [LawfulTokenStream τ]

lemma next (h : ReadsUpTo cs s ts t s₁) (c : TokenContext) :
    ∃ s₂, TokenStream.next c s₁ = (.ok t, s₂) := by
  obtain ⟨mid, reads, c', context, s₂, read, rfl⟩ := h
  exact ⟨s₂, next_pushBack read⟩

lemma of_consumes (first : Consumes cs s ts s₁) (second : ReadsUpTo cs s₁ us t s₂) :
    ReadsUpTo cs s (ts ++ us) t s₂ := by
  obtain ⟨mid, reads, stands⟩ := first
  obtain ⟨mid', reads', c, context, s₃, read, rfl⟩ := second
  obtain ⟨between, onward, stands'⟩ := Consumes.of_stands_reads stands reads'
  cases stands' with
  | same => exact ⟨mid', reads.append onward, c, context, s₃, read, rfl⟩
  | looked context' read' =>
    rw [next_pushBack read'] at read
    obtain ⟨rfl, rfl⟩ : _ = _ ∧ _ = _ := by simpa using read
    exact ⟨between, reads.append onward, _, context', _, read', rfl⟩

end ReadsUpTo

end ScriptEngine
