import Mathlib.Data.List.Forall2
import ReliableTransport.Fault

/-!
# Computations that may fault

A composed computation has a result if both of its parts have, and faults if one of them does.  A
computation is timely if its result is as wanted and no length of time leaves its range.  More
generally, it ensures a property if only permitted faults keep it from a result with the property.
-/

namespace ReliableTransport
namespace Fault

variable {α β : Type} {first : Except Fault α} {next : α → Except Fault β}

theorem exists_of_bind_eq_ok {result : β} (done : first >>= next = .ok result) :
    ∃ value, first = .ok value ∧ next value = .ok result := by
  cases first with
  | error fault => cases done
  | ok value => exact ⟨value, rfl, done⟩

theorem exists_of_map_eq_ok {f : α → β} {result : β} (done : first.map f = .ok result) :
    ∃ value, first = .ok value ∧ f value = result := by
  cases first with
  | error fault => cases done
  | ok value => exact ⟨value, rfl, Except.ok.inj done⟩

theorem error_of_bind_eq_error {fault : Fault} (failed : first >>= next = .error fault) :
    first = .error fault ∨ ∃ value, first = .ok value ∧ next value = .error fault := by
  cases first with
  | error other => exact Or.inl (congrArg Except.error (Except.error.inj failed))
  | ok value => exact Or.inr ⟨value, rfl, failed⟩

/-- A list of computations that have results has the list of the results. -/
theorem mapM_eq_ok {f : α → Except Fault β} {g : α → β} {items : List α}
    (each : ∀ item ∈ items, f item = .ok (g item)) : items.mapM f = .ok (items.map g) := by
  induction items with
  | nil => rfl
  | cons item items ih =>
      rw [List.mapM_cons, each item List.mem_cons_self,
        ih fun other mem => each other (List.mem_cons_of_mem _ mem)]
      rfl

/-- No length of time leaves its range, and the result has a property. -/
def Timely (post : α → Prop) (taken : Except Fault α) : Prop :=
  taken ≠ .error .duration ∧ ∀ result, taken = .ok result → post result

namespace Timely

variable {post : α → Prop} {post' : β → Prop}

theorem ok {result : α} (holds : post result) : Timely post (.ok result) := by
  refine ⟨by simp, fun other same => ?_⟩
  obtain rfl := Except.ok.inj same
  exact holds

theorem error {fault : Fault} (other : fault ≠ .duration) : Timely post (.error fault) := by
  refine ⟨fun same => other (Except.error.inj same), by simp⟩

theorem bind (timely : Timely post first)
    (timely_next : ∀ value, post value → Timely post' (next value)) :
    Timely post' (first >>= next) := by
  constructor
  · intro failed
    rcases error_of_bind_eq_error failed with failed | ⟨value, done, failed⟩
    · exact timely.1 failed
    · exact (timely_next value (timely.2 value done)).1 failed
  · intro result done
    obtain ⟨value, done, done'⟩ := exists_of_bind_eq_ok done
    exact (timely_next value (timely.2 value done)).2 result done'

end Timely

/-- Only permitted faults happen, and the result has a property. -/
def Ensures (permitted : Fault → Prop) (post : α → Prop) : Except Fault α → Prop
  | .ok result => post result
  | .error fault => permitted fault

namespace Ensures

variable {permitted permitted' : Fault → Prop} {post : α → Prop} {post' : β → Prop}

theorem of_ok {taken : Except Fault α} {result : α} (ensures : Ensures permitted post taken)
    (done : taken = .ok result) : post result := by
  subst done
  exact ensures

theorem of_error {taken : Except Fault α} {fault : Fault} (ensures : Ensures permitted post taken)
    (failed : taken = .error fault) : permitted fault := by
  subst failed
  exact ensures

/-- A weaker property is ensured with more faults. -/
theorem mono {taken : Except Fault α} (ensures : Ensures permitted post taken)
    {weaker : α → Prop} (faults : ∀ fault, permitted fault → permitted' fault)
    (results : ∀ result, post result → weaker result) : Ensures permitted' weaker taken := by
  cases taken with
  | error fault => exact faults fault ensures
  | ok result => exact results result ensures

theorem bind (ensures : Ensures permitted post first)
    (ensures_next : ∀ value, post value → Ensures permitted post' (next value)) :
    Ensures permitted post' (first >>= next) := by
  cases first with
  | error fault => exact ensures
  | ok value => exact ensures_next value ensures

/-- What each item of a list ensures is ensured along the list. -/
theorem mapM {related : α → β → Prop} {f : α → Except Fault β} {items : List α}
    (each : ∀ item ∈ items, Ensures permitted (related item) (f item)) :
    Ensures permitted (List.Forall₂ related items) (items.mapM f) := by
  induction items with
  | nil => exact .nil
  | cons item items ih =>
      rw [List.mapM_cons]
      refine (each item List.mem_cons_self).bind fun first holds => ?_
      refine (ih fun item mem => each item (List.mem_cons_of_mem _ mem)).bind fun rest others => ?_
      exact .cons holds others

end Ensures
end Fault
end ReliableTransport
