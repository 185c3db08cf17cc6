import UnitState.Proofs.ReadableRows
import UnitState.Proofs.Removals

/-!
# Searching by a stem

A search by a stem finds the live keys that begin with it, character by character, and removing
by a stem removes just those. The one exception is a stem with a NUL in it: a key is looked at up
to its first NUL only, so such a stem finds nothing, not even a key that begins with it.
-/

set_option autoImplicit false

namespace UnitState

open Json

namespace Database

theorem range_eq_nil_iff {database : Database} {stem : String} :
    database.range stem = [] ↔ ∀ key, Sought stem key → database.live.get? key = none := by
  rw [List.eq_nil_iff_forall_not_mem]
  constructor
  · intro nothing key sought
    cases found : database.live.get? key with
    | none => rfl
    | some text => exact absurd (mem_range_iff.2 ⟨found, sought⟩) (nothing (key, text))
  · intro absent row member
    obtain ⟨found, sought⟩ := mem_range_iff.1 member
    rw [absent row.1 sought] at found
    cases found

end Database

namespace Store

open Database (Sought)

/-- What a range query of decodable rows answers. -/
theorem get_range_found {store : Store} {contents : Database}
    (visible : store.view Schema.liveTable = .ok contents) {stem : String}
    (decodes : ∀ key text, Sought stem key → contents.live.get? key = some text →
      ∃ value, Value.parse text = .ok value) (strip : Bool) :
    ∃ found, store.getRange stem strip = .ok found ∧
      (found = none ↔ ∀ key, Sought stem key → contents.live.get? key = none) ∧
      ∀ name value, (found.getD ∅).get? name = some value ↔
        ∃ key text, Sought stem key ∧ contents.live.get? key = some text ∧
          Value.parse text = .ok value ∧ name = shownName stem key strip := by
  have readable : ∀ row ∈ contents.range stem, ∃ value, Value.parse row.2 = .ok value := by
    intro row member
    obtain ⟨found, sought⟩ := Database.mem_range_iff.1 member
    exact decodes row.1 row.2 sought found
  obtain ⟨found, ranged⟩ := get_range_ok visible readable strip
  obtain ⟨_, nothing, values⟩ := of_get_range_ok visible ranged
  refine ⟨found, ranged, nothing.trans Database.range_eq_nil_iff, fun name value => ?_⟩
  rw [values name value]
  constructor
  · rintro ⟨⟨key, text⟩, member, read, shown⟩
    obtain ⟨bound, sought⟩ := Database.mem_range_iff.1 member
    exact ⟨key, text, sought, bound, read, shown⟩
  · rintro ⟨key, text, sought, bound, read, shown⟩
    exact ⟨(key, text), Database.mem_range_iff.2 ⟨bound, sought⟩, read, shown⟩

/-- What a search by a stem finds at a store that sees these contents, and what it removes. -/
structure SearchedBy (store : Store) (contents : Database) (stem : String) : Prop where
  /-- The keys that are sought, each with its value. -/
  whole : ∃ found, store.getRange stem false = .ok found ∧
    (found = none ↔ ∀ key, Sought stem key → contents.live.get? key = none) ∧
    ∀ key value, (found.getD ∅).get? key = some value ↔
      Sought stem key ∧ ∃ text, contents.live.get? key = some text ∧ Value.parse text = .ok value
  /-- The same without the stem. -/
  stripped : ∃ found, store.getRange stem true = .ok found ∧
    (found = none ↔ ∀ key, Sought stem key → contents.live.get? key = none) ∧
    ∀ name value, (found.getD ∅).get? name = some value ↔
      Sought stem (stem ++ name) ∧
        ∃ text, contents.live.get? (stem ++ name) = some text ∧ Value.parse text = .ok value
  removal : store.Removal contents none stem

theorem found_whole {store : Store} {contents : Database}
    (visible : store.view Schema.liveTable = .ok contents) {stem : String}
    (decodes : ∀ key text, Sought stem key → contents.live.get? key = some text →
      ∃ value, Value.parse text = .ok value) :
    ∃ found, store.getRange stem false = .ok found ∧
      (found = none ↔ ∀ key, Sought stem key → contents.live.get? key = none) ∧
      ∀ key value, (found.getD ∅).get? key = some value ↔
        Sought stem key ∧
          ∃ text, contents.live.get? key = some text ∧ Value.parse text = .ok value := by
  obtain ⟨found, ranged, nothing, values⟩ := get_range_found visible decodes false
  refine ⟨found, ranged, nothing, fun key value => (values key value).trans ⟨?_, ?_⟩⟩
  · rintro ⟨_, text, sought, bound, read, rfl⟩
    exact ⟨sought, text, bound, read⟩
  · rintro ⟨sought, text, bound, read⟩
    exact ⟨key, text, sought, bound, read, rfl⟩

theorem found_stripped {store : Store} {contents : Database}
    (visible : store.view Schema.liveTable = .ok contents) {stem : String}
    (decodes : ∀ key text, Sought stem key → contents.live.get? key = some text →
      ∃ value, Value.parse text = .ok value) :
    ∃ found, store.getRange stem true = .ok found ∧
      (found = none ↔ ∀ key, Sought stem key → contents.live.get? key = none) ∧
      ∀ name value, (found.getD ∅).get? name = some value ↔
        Sought stem (stem ++ name) ∧
          ∃ text, contents.live.get? (stem ++ name) = some text ∧
            Value.parse text = .ok value := by
  obtain ⟨found, ranged, nothing, values⟩ := get_range_found visible decodes true
  refine ⟨found, ranged, nothing, fun name value => (values name value).trans ⟨?_, ?_⟩⟩
  · rintro ⟨_, text, ⟨plain, rest, rfl⟩, bound, read, rfl⟩
    rw [shown_name_append]
    exact ⟨⟨plain, rest, rfl⟩, text, bound, read⟩
  · rintro ⟨sought, text, bound, read⟩
    exact ⟨stem ++ name, text, sought, bound, read, (shown_name_append stem name).symm⟩

theorem nulls_decode {live : Table String String} (nulls : ∀ row ∈ live.entries, row.2 = "null")
    (key text : String) (found : live.get? key = some text) :
    ∃ value, Value.parse text = .ok value := by
  have null : text = "null" := nulls (key, text) (Table.get?_eq_some_iff.1 found)
  rw [null]
  exact ⟨.null, rfl⟩

end Store

namespace Fleet

variable {Name : Type} [DecidableEq Name]

/-- What a store finds by a stem, and what it removes by it. -/
theorem Reachable.searched_by {fleet : Fleet Name} (reachable : fleet.Reachable) {name : Name}
    {handle : Handle} (named : fleet.handles name = some handle) {contents : Database}
    (visible : (Store.mk handle fleet.file).view Schema.liveTable = .ok contents)
    (decodes : ∀ key text, contents.live.get? key = some text →
      ∃ value, Value.parse text = .ok value) (stem : String) :
    (Store.mk handle fleet.file).SearchedBy contents stem ∧
      (fleet.MayWrite name handle → ∃ gone later left,
        (Store.mk handle fleet.file).RemovesExactly contents none stem gone later left) := by
  have sees := Store.sees_of_view (reachable.coherent.handles named) visible
  have soughtDecode : ∀ key text, Database.Sought stem key → contents.live.get? key = some text →
      ∃ value, Value.parse text = .ok value := fun key text _ => decodes key text
  refine ⟨?_, fun may => (reachable.editable may visible).removal_exact none stem⟩
  constructor
  · exact Store.found_whole visible soughtDecode
  · exact Store.found_stripped visible soughtDecode
  · exact sees.removal none stem

def wildcardKeys : Fleet Nat :=
  (ofFile .fresh).run
    [(0, .connect .memory false),
      (0, .perform (.ask (.update (.ofList [("A%c", .null), ("a%é", .null), ("axb", .null)]) "")))]

theorem wildcard_searched :
    (Store.mk (.ofLocation .memory false) wildcardKeys.file).SearchedBy
      wildcardKeys.file.contents "a%" := by
  have reachable : wildcardKeys.Reachable := (Reachable.fresh.step 0 _).step 0 _
  have named : wildcardKeys.handles 0 = some (.ofLocation .memory false) := rfl
  have nulls : ∀ row ∈ wildcardKeys.file.contents.live.entries, row.2 = "null" := by
    decide +kernel
  exact (reachable.searched_by named rfl (Store.nulls_decode nulls) "a%").1

def nulKey : Fleet Nat :=
  (ofFile .fresh).run
    [(0, .connect .memory false), (0, .perform (.ask (.set "a\x00b" .null)))]

/-- A key with a NUL in it is neither found nor removed by a stem that reaches to the NUL. -/
theorem nul_stem_misses :
    nulKey.Reachable ∧ nulKey.handles 0 = some (.ofLocation .memory false) ∧
      (∀ key text, nulKey.file.contents.live.get? key = some text →
        ∃ value, Value.parse text = .ok value) ∧
      nulKey.file.contents.live.get? ("a\x00" ++ "b") = some "null" ∧
      Store.getRange ⟨.ofLocation .memory false, nulKey.file⟩ "a\x00" false = .ok none ∧
      Store.unsetRange none "a\x00" ⟨.ofLocation .memory false, nulKey.file⟩ =
        (.ok 0, ⟨.ofLocation .memory false, nulKey.file⟩) := by
  have reachable : nulKey.Reachable := (Reachable.fresh.step 0 _).step 0 _
  have nulls : ∀ row ∈ nulKey.file.contents.live.entries, row.2 = "null" := by decide +kernel
  exact ⟨reachable, rfl, Store.nulls_decode nulls, by decide +kernel, rfl, rfl⟩

end Fleet

end UnitState
