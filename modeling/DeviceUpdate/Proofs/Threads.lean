import Mathlib.Tactic.Lemma

/-!
# Pools of threads

In a step of a system one thread of the pool changes, or a new one comes last. All others stay as
they are.
-/

namespace DeviceUpdate

variable {α : Type} {threads : List α} {i j : Nat} {old new thread : α}

lemma getElem?_set_here (here : threads[i]? = some old) :
    (threads.set i new)[i]? = some new :=
  List.getElem?_set_self (List.getElem?_eq_some_iff.mp here).1

/-- A thread is the one that changed, or it is as it was. -/
lemma getElem?_set_cases (h : (threads.set i new)[j]? = some thread) :
    (j = i ∧ thread = new) ∨ (j ≠ i ∧ threads[j]? = some thread) := by
  by_cases hji : j = i
  · subst hji
    have hlt := (List.getElem?_eq_some_iff.mp h).1
    rw [List.length_set] at hlt
    rw [List.getElem?_set_self hlt] at h
    exact .inl ⟨rfl, (Option.some.inj h).symm⟩
  · rw [List.getElem?_set_ne (Ne.symm hji)] at h
    exact .inr ⟨hji, h⟩

/-- A thread is the one that was added, or it was there. -/
lemma getElem?_concat_cases (h : (threads ++ [new])[j]? = some thread) :
    (j = threads.length ∧ thread = new) ∨ (j < threads.length ∧ threads[j]? = some thread) := by
  rcases Nat.lt_or_ge j threads.length with hlt | hge
  · rw [List.getElem?_append_left hlt] at h
    exact .inr ⟨hlt, h⟩
  · rw [List.getElem?_append_right hge] at h
    have hzero := (List.getElem?_eq_some_iff.mp h).1
    simp only [List.length_singleton] at hzero
    obtain rfl : j = threads.length := by omega
    exact .inl ⟨rfl, by simpa using h.symm⟩

end DeviceUpdate
