import UnitState.Host.Scope

/-!
# What bodies keep

A scope on a host is entered, its body is run while the name of its store cannot be given away, and
the scope is ended in one of two ways. What each of these keeps, of the host and of what has been
told, is kept by the whole, however the body ends.
-/

set_option autoImplicit false

namespace UnitState

section Bodies

variable {State Error Result Other : Type} (holds : State → Prop)

theorem within_scope_keeps {enter : Attempt State Error Int}
    {commit discard : Attempt State Error Unit} {body : Int → Body State Error Result}
    (enters : ∀ state, holds state → holds (enter state).2)
    (runs : ∀ revision state, holds state → holds (body revision state).2)
    (commits : ∀ state, holds state → holds (commit state).2)
    (discards : ∀ state, holds state → holds (discard state).2) {state : State}
    (start : holds state) : holds (withinScope enter commit discard body state).2 := by
  unfold withinScope
  have opened := enters state start
  cases entered : enter state with
  | mk answer between =>
      rw [entered] at opened
      cases answer with
      | error error => exact opened
      | ok revision =>
          have left := runs revision between opened
          dsimp only
          cases ran : body revision between with
          | mk ending later =>
              rw [ran] at left
              cases ending with
              | returned result =>
                  have committed := commits later left
                  dsimp only
                  cases ended : commit later with
                  | mk answer last =>
                      rw [ended] at committed
                      cases answer <;> exact committed
              | failed error => exact discards later left
              | crashed => exact discards later left

theorem Body.after_keeps {first : Attempt State Error Other}
    {body : Other → Body State Error Result}
    (heads : ∀ state, holds state → holds (first state).2)
    (tails : ∀ result state, holds state → holds (body result state).2) {state : State}
    (start : holds state) : holds (Body.after first body state).2 := by
  unfold Body.after
  have headed := heads state start
  cases ran : first state with
  | mk answer later =>
      rw [ran] at headed
      cases answer with
      | error error => exact headed
      | ok result => exact tails result later headed

end Bodies

namespace Host

variable {Told Result : Type} (holds : Host × Told → Prop) {store : String}

theorem hook_scope_keeps {name : String} {body : Int → HostBody Told Result}
    (enters : ∀ row host told, holds (host, told) →
      holds ((on store (Store.beginScope row) host).2, told))
    (ends : ∀ save host told, holds (host, told) →
      holds ((on store (Store.flush save) host).2, told))
    (names : ∀ host told names, holds (host, told) → holds ({ host with inScope := names }, told))
    (runs : ∀ revision state, holds state → holds (body revision state).2)
    {state : Host × Told} (start : holds state) : holds (hookScope store name body state).2 := by
  refine within_scope_keeps holds (fun state => enters _ state.1 state.2) ?_
    (fun state => ends true state.1 state.2) (fun state => ends false state.1 state.2) start
  intro revision state opened
  exact names _ _ _ (runs revision _ (names _ _ _ opened))

end Host

end UnitState
