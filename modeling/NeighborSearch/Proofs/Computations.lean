import NeighborSearch.Index
import Mathlib.Tactic.Common

/-!
# Outcomes of computations

Operations may fail, may report events and may work on a state. What such a computation comes to
follows from its parts: a failure ends it, what was reported stays, and a step starts from the
state that the one before left behind.
-/

namespace NeighborSearch

variable {α β : Type}

/-- After a success the next step goes on with its value. -/
@[simp]
theorem ok_bind (a : α) (f : α → Except Error β) :
    ((.ok a : Except Error α) >>= f) = f a := rfl

/-- Nothing is done after a failure. -/
@[simp]
theorem error_bind (e : Error) (f : α → Except Error β) :
    ((.error e : Except Error α) >>= f) = .error e := rfl

@[simp]
theorem orOutOfBounds_some (a : α) : orOutOfBounds (some a) = .ok a := rfl

@[simp]
theorem orOutOfBounds_none : orOutOfBounds (none : Option α) = .error .outOfBounds := rfl

/-! ## Computations that report events -/

namespace Traced

/-- Events have no influence on the result. -/
@[simp]
theorem result_bind (x : Traced α) (f : α → Traced β) :
    (x >>= f).result = x.result >>= fun a => (f a).result := by
  change (Traced.bind x f).result = _
  unfold Traced.bind
  cases x.result <;> rfl

@[simp]
theorem result_pure (a : α) : (pure a : Traced α).result = .ok a := rfl

@[simp]
theorem result_emit (event : Event) : (emit event).result = .ok () := rfl

@[simp]
theorem result_ofExcept (x : Except Error α) : (ofExcept x).result = x := rfl

@[simp]
theorem result_liftM (x : Except Error α) : (liftM x : Traced α).result = x := rfl

end Traced

/-! ## Computations on a state -/

namespace Stateful

variable {σ : Type} {x : Stateful σ α} {P : α → Prop} {Q : β → Prop}

/-- The second step starts from the state of the first one, which stays as it is if that fails. -/
theorem runFrom_bind (x : Stateful σ α) (f : α → Stateful σ β) (s : σ) :
    (x >>= f).runFrom s = match x.runFrom s with
      | (.ok a, s') => (f a).runFrom s'
      | (.error err, s') => (.error err, s') := by
  change (x.run.run s >>= fun p => (ExceptT.bindCont f p.1).run p.2) = _
  unfold runFrom
  rcases x.run.run s with ⟨_ | a, s'⟩ <;> rfl

/-- From any state the computation succeeds, with a result that has the property. -/
def Yields (x : Stateful σ α) (P : α → Prop) : Prop :=
  ∀ s, ∃ a, (x.runFrom s).1 = .ok a ∧ P a

/-- Steps that cannot fail can be done one after another. -/
theorem Yields.bind {f : α → Stateful σ β} (hx : x.Yields P) (hf : ∀ a, P a → (f a).Yields Q) :
    (x >>= f).Yields Q := by
  intro s
  obtain ⟨a, ha, hP⟩ := hx s
  obtain ⟨b, hb, hQ⟩ := hf a hP (x.runFrom s).2
  refine ⟨b, ?_, hQ⟩
  rw [runFrom_bind, ← Prod.eta (x.runFrom s), ha]
  exact hb

end Stateful

end NeighborSearch
