/-!
# Requirements

A check is a sequence of requirements, and it ends with the error of the first one that is not met.
-/

namespace DetachedSchema

variable {ε : Type}

/-- Ends with the error unless a condition holds. -/
def require (condition : Bool) (error : ε) : Except ε Unit :=
  if condition then .ok () else .error error

theorem require_eq_ok {condition : Bool} {error : ε} :
  require condition error = .ok () ↔ condition = true
  := by
  cases condition with
  | false => simp [require]
  | true => simp [require]

theorem require_true {condition : Prop} [Decidable condition] (h : condition) (error : ε) :
  require condition error = .ok ()
  := if_pos (decide_eq_true h)

theorem require_false {condition : Prop} [Decidable condition] (h : ¬ condition) (error : ε) :
  require condition error = .error error
  := by
  rw [require, decide_eq_false h]
  rfl

end DetachedSchema
