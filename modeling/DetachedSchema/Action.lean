import DetachedSchema.Event
import DetachedSchema.Fault
import DetachedSchema.Files
import DetachedSchema.Script
import DetachedSchema.Timestamp

/-!
# Actions

An action is what a program does step by step: reading and writing files, printing, telling events
and looking at the clock.  The same action can be performed on a tree of files or by a running
program.
-/

namespace DetachedSchema

/-- What a program does until it ends with an `α` or a fault. -/
inductive Action (α : Type) : Type
  | done (a : α)
  | fail (fault : Fault)
  | read (path : String) (next : String → Action α)
  | write (path text : String) (next : Action α)
  | print (text : String) (next : Action α)
  | tell (event : Event) (next : Action α)
  | now (next : Timestamp → Action α)

namespace Action

/-- The action that goes on as `f` says with the result. -/
def bind {α β : Type} : Action α → (α → Action β) → Action β
  | .done a, f => f a
  | .fail fault, _ => .fail fault
  | .read path next, f => .read path fun text => (next text).bind f
  | .write path text next, f => .write path text (next.bind f)
  | .print text next, f => .print text (next.bind f)
  | .tell event next, f => .tell event (next.bind f)
  | .now next, f => .now fun time => (next time).bind f

instance : Monad Action where
  pure := .done
  bind := bind

theorem bind_done {α : Type} (action : Action α) :
  action.bind .done = action
  := by
  induction action with
  | done a => rfl
  | fail fault => rfl
  | read path next ih => simp only [bind, ih]
  | write path text next ih => simp only [bind, ih]
  | print text next ih => simp only [bind, ih]
  | tell event next ih => simp only [bind, ih]
  | now next ih => simp only [bind, ih]

theorem bind_bind {α β γ : Type} (action : Action α) (f : α → Action β) (g : β → Action γ) :
  (action.bind f).bind g = action.bind fun a => (f a).bind g
  := by
  induction action with
  | done a => rfl
  | fail fault => rfl
  | read path next ih => simp only [bind, ih]
  | write path text next ih => simp only [bind, ih]
  | print text next ih => simp only [bind, ih]
  | tell event next ih => simp only [bind, ih]
  | now next ih => simp only [bind, ih]

instance : LawfulMonad Action := LawfulMonad.mk'
  Action bind_done (fun _ _ => rfl) bind_bind

/-- Reads the text of a file. -/
def readFile (path : String) : Action String := .read path .done

/-- Writes a text to a file. -/
def writeFile (path text : String) : Action Unit := .write path text (.done ())

/-- Prints a line. -/
def printLine (text : String) : Action Unit := .print (text ++ "\n") (.done ())

/-- Tells an event. -/
def log (event : Event) : Action Unit := .tell event (.done ())

/-- Looks at the clock. -/
def clock : Action Timestamp := .now .done

/-- Goes on with a result unless it is a fault. -/
def ofExcept {α : Type} : Except Fault α → Action α
  | .ok a => .done a
  | .error fault => .fail fault

/-- Tells what came of running a script, and goes on with its result. -/
def ofRun {α : Type} (r : Script.Run α) : Action α := do
  r.events.forM log
  ofExcept r.result

/-- What came of performing an action. -/
structure Outcome (α : Type) where
  result : Except Fault α
  /-- The files afterwards. -/
  files : Files
  printed : String := ""
  events : List Event := []

/-- Performs an action on a tree of files while the clock stands still.  The first file that cannot
be read or written ends it. -/
def perform {α : Type} (time : Timestamp) : Action α → Files → Outcome α
  | .done a, files => { result := .ok a, files }
  | .fail fault, files => { result := .error fault, files }
  | .read path next, files =>
    match files.read path with
    | .ok text => (next text).perform time files
    | .error problem => { result := .error (.file problem), files }
  | .write path text next, files =>
    match files.write path text with
    | .ok files => next.perform time files
    | .error problem => { result := .error (.file problem), files }
  | .print text next, files =>
    let o := next.perform time files
    { o with printed := text ++ o.printed }
  | .tell event next, files =>
    let o := next.perform time files
    { o with events := event :: o.events }
  | .now next, files => (next time).perform time files

end Action

end DetachedSchema
