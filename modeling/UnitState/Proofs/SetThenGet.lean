import UnitState.Proofs.JsonDepth
import UnitState.Proofs.WritePlans
import UnitState.Store.Scope

/-!
# What is read after a value was set

After a value was set, the key has the compact text of the value's canonical form, and no other
key has changed. Reading the key gives the canonical form, unless that is nested deeper than the
reader allows: then it was set all the same, and reading it is an error. Nothing is assumed of
the store, which may be in a scope or not, and nothing of the key. Of the floats in the value it
is assumed that the text of each is read as the float.
-/

set_option autoImplicit false

namespace UnitState

open Json

namespace Store

theorem view_after_statement {edit : Database → Except EngineFault Database}
    {store later : Store} {table : String} {contents : Database}
    (visible : store.view table = .ok contents) (ran : statement edit store = (.ok (), later)) :
    ∃ edited, edit contents = .ok edited ∧ later.view table = .ok edited := by
  unfold view at visible
  unfold statement at ran
  cases connection : store.handle.connection with
  | closed =>
      simp only [connection] at ran
      cases ran
  | idle =>
      simp only [connection] at visible ran
      split at visible
      · rename_i hasTables
        cases visible
        cases changed : edit store.file.contents with
        | error fault =>
            rw [changed] at ran
            split at ran
            · cases ran
            · split at ran <;> cases ran
        | ok edited =>
            rw [changed] at ran
            refine ⟨edited, rfl, ?_⟩
            split at ran
            · cases ran
            · split at ran
              · cases ran
              · cases ran
                simp only [view, connection, hasTables, if_true]
      · cases visible
  | writing pending =>
      simp only [connection] at visible ran
      injection visible with same
      subst same
      cases changed : edit pending with
      | error fault =>
          rw [changed] at ran
          cases ran
      | ok edited =>
          rw [changed] at ran
          cases ran
          exact ⟨edited, rfl, rfl⟩

theorem live_after_record {key : String} {data : Option String} {store later : Store}
    {table : String} {contents : Database} (visible : store.view table = .ok contents)
    (ran : record key data store = (.ok (), later)) :
    ∃ recorded, later.view table = .ok recorded ∧ recorded.live = contents.live := by
  unfold record at ran
  split at ran
  · cases ran
    exact ⟨contents, visible, rfl⟩
  · obtain ⟨recorded, edited, seen⟩ := view_after_statement visible ran
    refine ⟨recorded, seen, ?_⟩
    unfold Database.record at edited
    split at edited
    · cases edited
      rfl
    · cases edited

/-- Setting a text binds the key to it and leaves all other keys as they are. -/
theorem get_raw_after_set_text {store later : Store} {key text : String}
    (stored : setText key text store = (.ok (), later)) :
    later.getRaw key = .ok (some text) ∧
      ∀ other, other ≠ key → later.getRaw other = store.getRaw other := by
  rw [set_text_run] at stored
  cases visible : store.view Schema.liveTable with
  | error error =>
      rw [get_raw_error visible] at stored
      cases stored
  | ok contents =>
      rw [get_raw_eq visible] at stored
      simp only at stored
      split at stored
      · rename_i present
        cases stored
        rw [get_raw_eq visible, present]
        exact ⟨rfl, fun _ _ => rfl⟩
      · obtain ⟨_, middle, written, recorded⟩ := Attempt.of_bind_ok stored
        obtain ⟨edited, changed, seen⟩ := view_after_statement visible written
        cases changed
        obtain ⟨last, lastSeen, live⟩ := live_after_record seen recorded
        have found : ∀ other, later.getRaw other =
            .ok ((contents.live.insert key text).get? other) := by
          intro other
          rw [get_raw_eq lastSeen, live]
          rfl
        refine ⟨?_, fun other apart => ?_⟩
        · rw [found, Table.get?_insert_self]
        · rw [found, Table.get?_insert_of_ne _ _ apart, get_raw_eq visible]

theorem get_of_get_raw {store : Store} {key text : String}
    (raw : store.getRaw key = .ok (some text)) :
    store.get key = (decode Value.parse text).map some := by
  unfold get getWith
  rw [raw]
  exact (map_eq_pure_bind some (decode Value.parse text)).symm

/-- What is read after a value was set, of any store, under any key. A value with its keys in
order is its own canonical form. -/
theorem set_then_get {store later : Store} {key : String} {value : Value}
    (floats : value.EveryNumber fun number => number.isFloat = true →
      Value.parse (String.ofList number.text) = .ok (.number number))
    (stored : set key value store = (.ok (), later)) :
    value.canonical.Canonical ∧ (value.Canonical → value.canonical = value) ∧
      later.getRaw key = .ok (some value.canonical.compact) ∧
      (value.canonical.depth ≤ nestingLimit → later.get key = .ok (some value.canonical)) ∧
      (nestingLimit < value.canonical.depth →
        ∃ fault, later.get key = .error (.serialization fault)) ∧
      ∀ other, other ≠ key → later.getRaw other = store.getRaw other := by
  obtain ⟨raw, others⟩ := get_raw_after_set_text stored
  have sorted := value.canonical_canonical
  have numbers : value.canonical.EveryNumber fun number => number.reread = number :=
    Value.EveryNumber.canonical value floats.reread
  have read := get_of_get_raw raw
  refine ⟨sorted, value.canonical_eq, raw, fun shallow => ?_, fun deep => ?_, others⟩
  · have parsed := Value.parse_compact shallow
    rw [Value.reread_eq_self sorted numbers] at parsed
    rw [read, Value.storedText, decode, parsed]
    rfl
  · cases parsed : Value.parse value.canonical.compact with
    | ok found =>
        have shallow := (Value.parse_compact_iff sorted).1 ⟨found, parsed⟩
        exact absurd shallow (Nat.not_le.2 deep)
    | error fault =>
        refine ⟨fault, ?_⟩
        rw [read, Value.storedText, decode, parsed]
        rfl

/-- A float under keys out of order, set in a scope. -/
theorem one_and_a_half_read_back :
    let value : Value := .object [("b", .number (.float ⟨false, 4609434218613702656, by decide⟩)),
      ("a", .array [.null])]
    let store := (beginScope ⟨"install", "today"⟩ inMemory).2
    value.canonical.depth ≤ nestingLimit ∧
      (set "ä\x00" value store).2.get "ä\x00" = .ok (some value.canonical) := by
  intro value store
  have shallow : value.canonical.depth ≤ nestingLimit := by decide +kernel
  have floats : value.EveryNumber fun number => number.isFloat = true →
      Value.parse (String.ofList number.text) = .ok (.number number) :=
    ⟨fun _ => by decide +kernel, ⟨trivial, trivial⟩, trivial⟩
  have stored : set "ä\x00" value store = (.ok (), (set "ä\x00" value store).2) :=
    Prod.ext (by decide +kernel) rfl
  exact ⟨shallow, (set_then_get floats stored).2.2.2.1 shallow⟩

end Store

end UnitState
