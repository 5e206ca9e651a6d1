import DetachedSchema.Source

/-!
# Scripts

A script is a way of reading a source: what it asks next depends on the answers before.  Running it
against a source gives a result together with the questions that were asked and the events that were
told, in their order.
-/

namespace DetachedSchema

/-- A way of reading a source that ends with an `α` or a fault. -/
inductive Script (α : Type) : Type
  | done (a : α)
  | fail (fault : Fault)
  | tell (event : Event) (next : Script α)
  | ask (q : Query) (next : q.Answer → Script α)

namespace Script

/-- The script that goes on as `f` says with the result. -/
def bind {α β : Type} : Script α → (α → Script β) → Script β
  | .done a, f => f a
  | .fail fault, _ => .fail fault
  | .tell event next, f => .tell event (next.bind f)
  | .ask q next, f => .ask q fun answer => (next answer).bind f

instance : Monad Script where
  pure := .done
  bind := bind

@[simp] theorem pure_eq_done {α : Type} (a : α) :
  (pure a : Script α) = .done a
  := rfl

@[simp] theorem bind_eq {α β : Type} (s : Script α) (f : α → Script β) :
  s >>= f = s.bind f
  := rfl

theorem bind_done {α : Type} (s : Script α) :
  s.bind .done = s
  := by
  induction s with
  | done a => rfl
  | fail fault => rfl
  | tell event next ih => simp only [bind, ih]
  | ask q next ih => simp only [bind, ih]

theorem bind_bind {α β γ : Type} (s : Script α) (f : α → Script β) (g : β → Script γ) :
  (s.bind f).bind g = s.bind fun a => (f a).bind g
  := by
  induction s with
  | done a => rfl
  | fail fault => rfl
  | tell event next ih => simp only [bind, ih]
  | ask q next ih => simp only [bind, ih]

instance : LawfulMonad Script := LawfulMonad.mk'
  Script bind_done (fun _ _ => rfl) bind_bind

/-- Asks a question. -/
def query (q : Query) : Script q.Answer := .ask q .done

/-- Tells an event. -/
def log (event : Event) : Script Unit := .tell event (.done ())

/-- Gives up. -/
def throw {α : Type} (fault : Fault) : Script α := .fail fault

/-- Goes on with a result unless it is a fault. -/
def ofExcept {α : Type} : Except Fault α → Script α
  | .ok a => .done a
  | .error fault => .fail fault

/-- What came of running a script. -/
structure Run (α : Type) where
  result : Except Fault α
  /-- The questions that were asked. -/
  calls : List Query := []
  /-- The events that were told, by the source and by the script. -/
  events : List Event := []

/-- Runs a script against a source.  The first question without an answer ends it. -/
def run {σ α : Type} (source : Source σ) : Script α → StateM σ (Run α)
  | .done a => pure { result := .ok a }
  | .fail fault => pure { result := .error fault }
  | .tell event next => do
    let r ← next.run source
    return { r with events := event :: r.events }
  | .ask q next => do
    let reply ← source.reply q
    match reply.result with
    | .error fault => return { result := .error fault, calls := [q], events := reply.events }
    | .ok answer =>
      let r ← (next answer).run source
      return { r with calls := q :: r.calls, events := reply.events ++ r.events }

end Script

end DetachedSchema
