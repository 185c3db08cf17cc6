import UnitState.CommandLine.Run
import UnitState.Proofs.SetThenGet

/-!
# Commands on a store

A command runs on a store out of a scope. It changes at most the live rows, and those only if it
ends with code 0; what it changes there follows from its words. Setting a value ends with code 1
if the value cannot be read. If the value is there already nothing is written, and nothing can
stand against that; else a store that may only read, or another one's lock, is an error.
-/

set_option autoImplicit false

namespace UnitState

open Json

namespace Command

open Store

/-- The key whose row a command is there to change, if it is not there to look. -/
def target? : Command → Option String
  | set key .. | unset key => some key
  | get _ | getRange .. | history .. | debug => none

theorem value_of_error_iff {text : String} {json : Bool} :
    (∃ fault, valueOf text json = .error fault) ↔
      json = true ∧ ∃ fault, Value.parse text = .error fault := by
  cases json <;> simp [valueOf]

theorem parse_stored_value {text : String} {json : Bool} {value : Value}
    (read : valueOf text json = .ok value)
    (floats : value.EveryNumber fun number => number.isFloat = true →
      Value.parse (String.ofList number.text) = .ok (.number number)) :
    Value.parse value.storedText = .ok value := by
  cases json with
  | true =>
      have parsed : Value.parse text = .ok value := read
      exact Value.parse_stored_text (Value.canonical_of_parse parsed)
        (Value.depth_le_of_parse parsed) floats.reread
  | false =>
      cases read
      exact Value.parse_stored_text trivial (Nat.zero_le _) trivial

def applied : Command → Table String String → Table String String
  | set key text json, live =>
      match valueOf text json with
      | .ok value => live.insert key value.storedText
      | .error _ => live
  | unset key, live => live.erase key
  | get _, live | getRange .., live | history .., live | debug, live => live

theorem applied_apart {command : Command} {key : String} (apart : command.target? ≠ some key)
    (live : Table String String) : (command.applied live).get? key = live.get? key := by
  cases command with
  | get | getRange | history | debug => rfl
  | unset other =>
      have different : key ≠ other := fun same => apart (congrArg some same.symm)
      exact Table.get?_erase_of_ne live different
  | set other text json =>
      have different : key ≠ other := fun same => apart (congrArg some same.symm)
      cases read : valueOf text json with
      | error fault => simp only [applied, read]
      | ok value => simp only [applied, read, Table.get?_insert_of_ne live _ different]

theorem applied_reading {command : Command} (reads : command.target? = none)
    (live : Table String String) : command.applied live = live := by
  apply Table.ext_get?
  intro key
  apply applied_apart
  rw [reads]
  exact (Option.some_ne_none key).symm

def appliedAll (commands : List Command) (live : Table String String) : Table String String :=
  commands.foldl (fun live command => command.applied live) live

theorem applied_all_apart {commands : List Command} {key : String}
    (apart : ∀ command ∈ commands, command.target? ≠ some key) (live : Table String String) :
    (appliedAll commands live).get? key = live.get? key := by
  induction commands generalizing live with
  | nil => rfl
  | cons command later hypothesis =>
      have rest := hypothesis (fun other member => apart other (List.mem_cons_of_mem command member))
      exact (rest _).trans (applied_apart (apart command List.mem_cons_self) live)

section Outside

variable {store : Store} (outside : store.handle.Outside)

include outside

theorem run_set (key text : String) (json : Bool) :
    (set key text json).run store =
      match valueOf text json with
      | .error fault =>
          (.complaint 1 ("invalid JSON value '" ++ text ++ "': " ++ fault.message), store)
      | .ok value =>
          match store.view Schema.liveTable with
          | .error error => (refused error, store)
          | .ok contents =>
              if contents.live.get? key = some value.storedText then (.silent 0, store)
              else
                match store.bar? with
                | some fault => (refused (.engine fault), store)
                | none =>
                    (.silent 0, store.withContents (contents.setLive key value.storedText)) := by
  cases read : valueOf text json with
  | error fault => simp only [run, read]
  | ok value =>
      have stored : Store.set key value store = _ := set_text_outside outside key value.storedText
      have stays : ∀ contents, (store.withContents contents).handle.Outside := fun _ => outside
      simp only [run, read]
      cases visible : store.view Schema.liveTable with
      | error error =>
          rw [visible] at stored
          rw [Attempt.bind_error stored]
          rfl
      | ok contents =>
          rw [visible] at stored
          dsimp only at stored ⊢
          split at stored
          · rename_i present
            rw [Attempt.bind_ok stored, flush_outside outside, if_pos present]
            rfl
          · rename_i absent
            rw [if_neg absent]
            cases bar : store.bar? with
            | some fault =>
                rw [bar] at stored
                rw [Attempt.bind_error stored]
                rfl
            | none =>
                rw [bar] at stored
                rw [Attempt.bind_ok stored, flush_outside (stays _)]
                rfl

theorem run_unset (key : String) :
    (unset key).run store =
      match store.view Schema.liveTable with
      | .error error => (refused error, store)
      | .ok contents =>
          match store.bar? with
          | some fault => (refused (.engine fault), store)
          | none => (.silent 0, store.withContents (contents.eraseLive key)) := by
  have removed := unset_outside outside key
  have stays : ∀ contents, (store.withContents contents).handle.Outside := fun _ => outside
  simp only [run]
  cases visible : store.view Schema.liveTable with
  | error error =>
      rw [visible] at removed
      rw [Attempt.bind_error removed]
      rfl
  | ok contents =>
      rw [visible] at removed
      dsimp only at removed ⊢
      cases bar : store.bar? with
      | some fault =>
          rw [bar] at removed
          rw [Attempt.bind_error removed]
          rfl
      | none =>
          rw [bar] at removed
          rw [Attempt.bind_ok removed, flush_outside (stays _)]
          rfl

/-- A command changes the live rows as its words say if it ends with code 0, and else nothing. -/
theorem run_leaves (command : Command) :
    (command.run store).2 =
      if (command.run store).1.exit = 0 then
        store.withContents
          { store.file.contents with live := command.applied store.file.contents.live }
      else store := by
  cases command with
  | get | getRange | history | debug =>
      simp only [run, applied]
      exact (ite_self store).symm
  | unset key =>
      rw [run_unset outside]
      cases visible : store.view Schema.liveTable with
      | error error => rfl
      | ok contents =>
          obtain ⟨_, same⟩ := view_outside outside visible
          subst same
          cases store.bar? <;> rfl
  | set key text json =>
      rw [run_set outside]
      cases read : valueOf text json with
      | error fault => rfl
      | ok value =>
          cases visible : store.view Schema.liveTable with
          | error error => rfl
          | ok contents =>
              obtain ⟨_, same⟩ := view_outside outside visible
              subst same
              dsimp only
              split
              · rename_i present
                -- nothing is written, and nothing would be changed
                have still : store.file.contents.live.insert key value.storedText =
                    store.file.contents.live := Table.change_present present
                simp only [ProgramEnd.silent, if_true, applied, read, still]
                rfl
              · cases store.bar? with
                | some fault => rfl
                | none =>
                    simp only [ProgramEnd.silent, if_true, applied, read]
                    rfl

theorem run_handle (command : Command) : (command.run store).2.handle = store.handle := by
  rw [run_leaves outside]
  split <;> rfl

theorem run_file (command : Command) :
    (command.run store).2.file = { store.file with
      contents := { store.file.contents with live := (command.run store).2.file.contents.live } } := by
  rw [run_leaves outside]
  split <;> rfl

theorem run_harmless {command : Command}
    (harmless : command.target? = none ∨ (command.run store).1.exit ≠ 0) :
    (command.run store).2 = store := by
  rw [run_leaves outside]
  split
  · rename_i done
    rw [applied_reading (harmless.resolve_right (not_not_intro done))]
    rfl
  · rfl

variable {contents : Database} (visible : store.view Schema.liveTable = .ok contents)

include visible

theorem exit_of_set (key text : String) (json : Bool) :
    ((set key text json).run store).1.exit =
      match valueOf text json with
      | .error _ => 1
      | .ok value =>
          if contents.live.get? key = some value.storedText ∨ store.bar? = none then 0 else 2 := by
  rw [run_set outside, visible]
  cases valueOf text json with
  | error fault => rfl
  | ok value =>
      by_cases present : contents.live.get? key = some value.storedText
      · simp only [present, if_true, true_or]
        rfl
      · cases bar : store.bar? <;> simp only [present, if_false, false_or, reduceCtorEq] <;> rfl

theorem exit_of_set_iff (writable : store.handle.readOnly = false) (key text : String)
    (json : Bool) :
    (((set key text json).run store).1.exit = 1 ↔
        json = true ∧ ∃ fault, Value.parse text = .error fault) ∧
      (((set key text json).run store).1.exit = 2 ↔ ∃ value, valueOf text json = .ok value ∧
        contents.live.get? key ≠ some value.storedText ∧ store.file.locked = true) ∧
      (((set key text json).run store).1.exit = 0 ∨ ((set key text json).run store).1.exit = 1 ∨
        ((set key text json).run store).1.exit = 2) := by
  rw [exit_of_set outside visible, bar_writable writable, ← value_of_error_iff]
  cases read : valueOf text json with
  | error fault => simp
  | ok value =>
      by_cases present : contents.live.get? key = some value.storedText
      · simp [present]
      · cases store.file.locked <;> simp [present]

theorem exit_of_unset (key : String) :
    ((unset key).run store).1.exit = if store.bar? = none then 0 else 2 := by
  rw [run_unset outside, visible]
  cases bar : store.bar? <;> rfl

theorem exit_or_applied (command : Command) :
    ((command.run store).1.exit = 0 ↔ store.bar? = none) ∨
      command.applied contents.live = contents.live := by
  cases command with
  | get | getRange | history | debug => exact .inr rfl
  | unset key =>
      left
      rw [exit_of_unset outside visible]
      cases store.bar? <;> simp
  | set key text json =>
      rw [exit_of_set outside visible]
      cases read : valueOf text json with
      | error fault =>
          right
          simp only [applied, read]
      | ok value =>
          by_cases present : contents.live.get? key = some value.storedText
          · right
            simp only [applied, read]
            exact Table.change_present present
          · left
            cases store.bar? <;> simp [present]

/-- What becomes of the file depends on nothing but the lock, if it may be written. -/
theorem run_settles (writable : store.handle.readOnly = false) (command : Command) :
    (command.run store).2.file = { store.file with
      contents := { store.file.contents with
        live := if store.file.locked then store.file.contents.live
          else command.applied store.file.contents.live } } := by
  obtain ⟨_, same⟩ := view_outside outside visible
  subst same
  rw [run_leaves outside]
  rcases exit_or_applied outside visible command with written | same
  · have free : (command.run store).1.exit = 0 ↔ ¬store.file.locked = true := by
      rw [written, bar_writable writable]
      split <;> simp_all
    simp only [free, ite_not]
    split <;> rfl
  · rw [same, ite_self]
    split <;> rfl

end Outside

theorem run_get {store : Store} {key text : String} {value : Value}
    (raw : store.getRaw key = .ok (some text)) (read : Value.parse text = .ok value) :
    (get key).run store = (line value, store) := by
  have found : store.get key = .ok (some value) := by
    rw [get_of_get_raw raw, decode, read]
    rfl
  simp only [run, found]
  rfl

end Command

end UnitState
