import Mathlib.Tactic.Lemma
import ScriptEngine.Machine

/-!
# Entries of stores

A store is known by its entries (`Store.ext_find?`).  Putting an entry in its place, adding one and
clearing a place change the store at one reference; what is at the others stays.
-/

namespace ScriptEngine

variable {α : Type}

namespace Store

/-- The entry of a reference, if there is one. -/
def find? (r : Ref α) (s : Store α) : Option α :=
  s.entries[r.index]?

/-- Puts an entry in the place of a reference, or clears the place. -/
def place (r : Ref α) (entry : Option α) (s : Store α) : Store α :=
  { s with entries := s.entries.alter r.index fun _ => entry }

variable {r r' : Ref α} {s t : Store α}

lemma get_eq [EmptyCollection α] (r : Ref α) (s : Store α) : s.get r = (s.find? r).getD ∅ :=
  Std.ExtTreeMap.getD_eq_getD_getElem?

lemma ext_find? (entries : ∀ r, s.find? r = t.find? r) (next : s.next = t.next) : s = t := by
  obtain ⟨_, _⟩ := s
  obtain ⟨_, _⟩ := t
  obtain rfl : _ = _ := next
  congr 1
  exact Std.ExtTreeMap.ext_getElem? fun k => entries ⟨k⟩

@[simp] lemma find?_place (r : Ref α) (entry : Option α) (s : Store α) :
    (s.place r entry).find? r = entry := by
  simp [find?, place]

lemma find?_place_of_ne (other : r' ≠ r) (entry : Option α) (s : Store α) :
    (s.place r entry).find? r' = s.find? r' := by
  have index_ne : r.index ≠ r'.index := fun same => other (congrArg Ref.mk same.symm)
  simp [find?, place, Std.ExtTreeMap.getElem?_alter, index_ne]

@[simp] lemma get_place [EmptyCollection α] (r : Ref α) (entry : Option α) (s : Store α) :
    (s.place r entry).get r = entry.getD ∅ := by
  rw [get_eq, find?_place]

lemma get_place_of_ne [EmptyCollection α] (other : r' ≠ r) (entry : Option α) (s : Store α) :
    (s.place r entry).get r' = s.get r' := by
  rw [get_eq, get_eq, find?_place_of_ne other]

/-- Stores are the same if they are at one reference and at all others. -/
lemma ext_at (r : Ref α) (here : s.find? r = t.find? r)
    (elsewhere : ∀ r', r' ≠ r → s.find? r' = t.find? r') (next : s.next = t.next) : s = t := by
  refine ext_find? (fun r' => ?_) next
  by_cases same : r' = r
  · rw [same, here]
  · exact elsewhere r' same

@[simp] lemma place_find? (r : Ref α) (s : Store α) : s.place r (s.find? r) = s :=
  ext_at r (find?_place r _ s) (fun _ other => find?_place_of_ne other _ s) rfl

@[simp] lemma place_place (r : Ref α) (entry entry' : Option α) (s : Store α) :
    (s.place r entry).place r entry' = s.place r entry' := by
  refine ext_at r ?_ (fun other ne => ?_) rfl
  · rw [find?_place, find?_place]
  · rw [find?_place_of_ne ne, find?_place_of_ne ne, find?_place_of_ne ne]

lemma set_eq_place (r : Ref α) (a : α) (s : Store α) : s.set r a = s.place r (some a) := by
  refine ext_find? (fun r' => ?_) rfl
  simp [find?, set, place, Std.ExtTreeMap.getElem?_alter, Std.ExtTreeMap.getElem?_insert]

lemma place_comm (apart : r ≠ r') (entry entry' : Option α) (s : Store α) :
    (s.place r entry).place r' entry' = (s.place r' entry').place r entry := by
  refine ext_at r ?_ (fun other ne => ?_) rfl
  · rw [find?_place, find?_place_of_ne apart, find?_place]
  · rw [find?_place_of_ne ne]
    by_cases same : other = r'
    · rw [same, find?_place, find?_place]
    · rw [find?_place_of_ne same, find?_place_of_ne same, find?_place_of_ne ne]

/-! ### New entries -/

lemma get_add [EmptyCollection α] (a : α) (s : Store α) : (s.add a).2.get (s.add a).1 = a := by
  simp [add, get]

lemma get_add_of_ne [EmptyCollection α] (other : r ≠ ⟨s.next⟩) (a : α) :
    (s.add a).2.get r = s.get r := by
  have index_ne : s.next ≠ r.index := fun same => other (by rw [same])
  simp [add, get, Std.ExtTreeMap.getD_insert, index_ne]

end Store
end ScriptEngine
