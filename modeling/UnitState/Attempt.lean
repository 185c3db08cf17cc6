/-!
# Attempts

An attempt runs on a state and gives either a result or an error, together with the
state that it leaves. An error does not undo what was done before it: whoever needs
that has to ask for it.
-/

set_option autoImplicit false

namespace UnitState

def Attempt (State Error Result : Type) : Type := State → Except Error Result × State

namespace Attempt

variable {State Error Result Other : Type}

protected def pure (result : Result) : Attempt State Error Result :=
  fun state => (.ok result, state)

protected def bind (first : Attempt State Error Result)
    (next : Result → Attempt State Error Other) : Attempt State Error Other := fun state =>
  match first state with
  | (.ok result, later) => next result later
  | (.error error, later) => (.error error, later)

instance : Monad (Attempt State Error) where
  pure := Attempt.pure
  bind := Attempt.bind

def fail (error : Error) : Attempt State Error Result := fun state => (.error error, state)

def inspect (look : State → Except Error Result) : Attempt State Error Result :=
  fun state => (look state, state)

def ofExcept (result : Except Error Result) : Attempt State Error Result :=
  fun state => (result, state)

def modify (change : State → State) : Attempt State Error Unit :=
  fun state => (.ok (), change state)

def mapError {Fault : Type} (wrap : Error → Fault) (attempt : Attempt State Error Result) :
    Attempt State Fault Result := fun state =>
  let (result, later) := attempt state
  (result.mapError wrap, later)

def onFirst {Rest : Type} (attempt : Attempt State Error Result) :
    Attempt (State × Rest) Error Result := fun state =>
  let (result, first) := attempt state.1
  (result, (first, state.2))

/-- Runs an attempt for every item of a list, up to the first error. -/
def forEach {Item : Type} (attempt : Item → Attempt State Error Unit) :
    List Item → Attempt State Error Unit
  | [] => Attempt.pure ()
  | head :: tail => (attempt head).bind fun _ => forEach attempt tail

@[simp] theorem run_pure (result : Result) (state : State) :
    (pure result : Attempt State Error Result) state = (.ok result, state) := rfl

theorem bind_ok {first : Attempt State Error Result}
    {next : Result → Attempt State Error Other} {state later : State} {result : Result}
    (success : first state = (.ok result, later)) :
    (first >>= next) state = next result later := by
  simp [Bind.bind, Attempt.bind, success]

theorem bind_error {first : Attempt State Error Result}
    {next : Result → Attempt State Error Other} {state later : State} {error : Error}
    (failure : first state = (.error error, later)) :
    (first >>= next) state = (.error error, later) := by
  simp [Bind.bind, Attempt.bind, failure]

theorem of_bind_ok {first : Attempt State Error Result}
    {next : Result → Attempt State Error Other} {state last : State} {other : Other}
    (success : (first >>= next) state = (.ok other, last)) :
    ∃ result later, first state = (.ok result, later) ∧ next result later = (.ok other, last) := by
  cases ran : first state with
  | mk answer later =>
      cases answer with
      | error error =>
          rw [bind_error ran] at success
          cases success
      | ok result =>
          rw [bind_ok ran] at success
          exact ⟨result, later, rfl, success⟩

end Attempt

end UnitState
