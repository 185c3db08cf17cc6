import UnitState.Proofs.EqualData
import UnitState.Proofs.SnapshotOutcome
import UnitState.Proofs.StemSearch

/-!
# Updates override

An update stores the values of a mapping one by one, but the keys of a mapping differ and so do
the keys that they get with a stem, so the order makes no difference. What is read back through
the stem is what was there before, overridden by the mapping. In a scope just the keys are
recorded whose text was another one. What the delta has told as removed is still there after the
update; once it is removed as well, nothing differs any more.
-/

set_option autoImplicit false

namespace UnitState

open Json

/-! ## The same writes in another order -/

section SameWrites

variable {writes others : List Write}

theorem Agreeing.congr (agreeing : Agreeing writes)
    (same : ∀ write, write ∈ others ↔ write ∈ writes) : Agreeing others := by
  intro first firstMember second secondMember
  exact agreeing first ((same first).1 firstMember) second ((same second).1 secondMember)

/-- Agreeing writes leave the same texts in any order. -/
theorem Table.change_all_congr (live : Table String String) (agreeing : Agreeing writes)
    (same : ∀ write, write ∈ others ↔ write ∈ writes) :
    live.changeAll others = live.changeAll writes := by
  apply Table.ext_get?
  intro key
  by_cases written : ∃ write ∈ writes, write.key = key
  · obtain ⟨write, member, rfl⟩ := written
    have first : (live.changeAll writes).get? write.key = write.data :=
      Table.has_change_all agreeing write member
    have second : (live.changeAll others).get? write.key = write.data :=
      Table.has_change_all (agreeing.congr same) write ((same write).2 member)
    rw [first, second]
  · have apart : ∀ write ∈ writes, write.key ≠ key := fun write member equal =>
      written ⟨write, member, equal⟩
    rw [Table.get?_change_all_of_ne apart,
      Table.get?_change_all_of_ne fun write member => apart write ((same write).1 member)]

attribute [ext] Database

theorem Database.assign_all_congr (database : Database) (revision : Option Int)
    (agreeing : Agreeing writes) (same : ∀ write, write ∈ others ↔ write ∈ writes) :
    database.assignAll revision others = database.assignAll revision writes := by
  have texts := Table.change_all_congr database.live agreeing same
  apply Database.ext
  · rw [live_assign_all, live_assign_all, texts]
  · rw [hooks_assign_all, hooks_assign_all]
  · apply Table.ext_get?
    rintro ⟨number, key⟩
    rw [row_assign_all_agreeing database revision agreeing,
      row_assign_all_agreeing database revision (agreeing.congr same), texts]
  · rw [sequence_assign_all, sequence_assign_all]

end SameWrites

namespace Store

variable {mapping : Object} {stem : String} {live : Table String String}

/-! ## What an update leaves under its stem -/

theorem mem_update_writes_iff {write : Write} :
    write ∈ updateWrites mapping stem ↔ ∃ name value, mapping.get? name = some value ∧
      write = ⟨stem ++ name, some value.storedText⟩ := by
  rw [updateWrites, List.mem_map]
  constructor
  · rintro ⟨⟨name, value⟩, member, rfl⟩
    exact ⟨name, value, Table.get?_eq_some_iff.2 member, rfl⟩
  · rintro ⟨name, value, found, rfl⟩
    exact ⟨(name, value), Table.get?_eq_some_iff.1 found, rfl⟩

theorem get?_after_update (live : Table String String) (mapping : Object) (stem name : String) :
    (live.changeAll (updateWrites mapping stem)).get? (stem ++ name) =
      ((mapping.get? name).map Value.storedText).or (live.get? (stem ++ name)) := by
  cases found : mapping.get? name with
  | some value =>
      exact Table.has_change_all (update_writes_agreeing mapping stem) _
        (mem_update_writes_iff.2 ⟨name, value, found, rfl⟩)
  | none =>
      apply Table.get?_change_all_of_ne
      intro write member same
      obtain ⟨other, value, known, rfl⟩ := mem_update_writes_iff.1 member
      have equal : other = name := (String.append_right_inj stem).1 same
      rw [equal, found] at known
      cases known

theorem get?_after_update_of_ne {key : String}
    (apart : ∀ name value, mapping.get? name = some value → key ≠ stem ++ name) :
    (live.changeAll (updateWrites mapping stem)).get? key = live.get? key := by
  apply Table.get?_change_all_of_ne
  intro write member same
  obtain ⟨name, value, found, rfl⟩ := mem_update_writes_iff.1 member
  exact apart name value found same.symm

theorem changed_by_update_iff {key : String} :
    (live.changeAll (updateWrites mapping stem)).get? key ≠ live.get? key ↔
      ∃ name value, mapping.get? name = some value ∧ key = stem ++ name ∧
        live.get? key ≠ some value.storedText := by
  constructor
  · intro changed
    by_contra none
    by_cases apart : ∀ name value, mapping.get? name = some value → key ≠ stem ++ name
    · exact changed (get?_after_update_of_ne apart)
    · push Not at apart
      obtain ⟨name, value, found, rfl⟩ := apart
      rw [get?_after_update, found] at changed
      exact none ⟨name, value, found, rfl, changed.symm⟩
  · rintro ⟨name, value, found, rfl, different⟩
    rw [get?_after_update, found]
    exact different.symm

theorem overridden_range (plain : '\x00' ∉ stem.toList) (rereadable : Rereadable mapping)
    {before : Option Object} (ranged : (holding live).getRange stem true = .ok before) :
    ∃ after, (holding (live.changeAll (updateWrites mapping stem))).getRange stem true = .ok after ∧
      after.getD ∅ = (before.getD ∅).override mapping := by
  obtain ⟨readable, values⟩ := of_get_range plain ranged
  have left : Readable (live.changeAll (updateWrites mapping stem)) stem := by
    intro name text found
    rw [get?_after_update] at found
    cases known : mapping.get? name with
    | none =>
        rw [known] at found
        exact readable name text found
    | some value =>
        rw [known] at found
        cases found
        exact ⟨value, rereadable name value known⟩
  obtain ⟨after, readBack⟩ := left.get_range
  refine ⟨after, readBack, ?_⟩
  have found := (of_get_range plain readBack).2
  apply Table.ext_get?
  intro name
  apply Option.ext
  intro value
  rw [found, get?_after_update, Table.get?_override]
  cases known : mapping.get? name with
  | none => exact (values name value).symm
  | some other =>
      have read := rereadable name other known
      simp only [Option.map_some, Option.some_or, Option.some.injEq, exists_eq_left', read,
        Except.ok.injEq]

/-- Once the names are removed that the delta has told as removed, just the mapping is left. The
removal and the update are of different keys, so it makes no difference which comes first. -/
theorem stored_after_removal (mapping : Object) (plain : '\x00' ∉ stem.toList)
    {before : Option Object} (ranged : (holding live).getRange stem true = .ok before) :
    Stored
      ((live.changeAll (updateWrites mapping stem)).changeAll
        (removalWrites ((computeDelta (before.getD ∅) mapping).removed.map (stem ++ ·))))
      stem mapping := by
  let removal :=
    removalWrites ((computeDelta (before.getD ∅) mapping).removed.map (stem ++ ·))
  have apart : ∀ write ∈ removal, ∀ other ∈ updateWrites mapping stem, write.key ≠ other.key := by
    intro write member other otherMember same
    obtain ⟨key, listed, rfl⟩ := List.mem_map.1 member
    obtain ⟨gone, removed, rfl⟩ := List.mem_map.1 listed
    obtain ⟨name, value, found, rfl⟩ := mem_update_writes_iff.1 otherMember
    have sameName : gone = name := (String.append_right_inj stem).1 same
    rw [← sameName, (mem_removed_iff.1 removed).2] at found
    cases found
  have agreeing : Agreeing (removal ++ updateWrites mapping stem) :=
    (removal_writes_agreeing _).append (update_writes_agreeing mapping stem) apart
  have swapped : live.changeAll (updateWrites mapping stem ++ removal) =
      live.changeAll (removal ++ updateWrites mapping stem) := by
    apply Table.change_all_congr live agreeing
    intro write
    rw [List.mem_append, List.mem_append, or_comm]
  rw [← Table.change_all_append, swapped]
  exact Stored.of_replaced (known_of_get_range plain ranged) mapping

/-! ## What an update does -/

def setEach (pairs : List (String × Value)) (stem : String) : Action Unit :=
  Attempt.forEach (fun (key, value) => set (stem ++ key) value) pairs

/-- What an update does at a store that sees these contents: the store after it, and what that
sees. -/
structure Overrides (store : Store) (contents : Database) (mapping : Object) (stem : String)
    (later : Store) (left : Database) : Prop where
  anyOrder : ∀ pairs : List (String × Value), pairs.Perm mapping.entries →
    setEach pairs stem store = (.ok (), later)
  view : later.view Schema.liveTable = .ok left
  ranged : ∃ before after, store.getRange stem true = .ok before ∧
    later.getRange stem true = .ok after ∧ after.getD ∅ = (before.getD ∅).override mapping
  kept : ∀ key, (∀ name value, mapping.get? name = some value → key ≠ stem ++ name) →
    left.live.get? key = contents.live.get? key ∧
      ∀ revision, left.history.get? (revision, key) = contents.history.get? (revision, key)
  /-- Just the rows of the active revision are written whose key has got another text. -/
  recorded : ∀ revision key,
    left.history.get? (revision, key) ≠ contents.history.get? (revision, key) ↔
      store.handle.revision = some revision ∧ ∃ name value, mapping.get? name = some value ∧
        key = stem ++ name ∧ contents.live.get? key ≠ some value.storedText
  rows : ∀ revision key,
    left.history.get? (revision, key) ≠ contents.history.get? (revision, key) →
      left.history.get? (revision, key) = some (left.live.get? key)
  told : ∃ deltas, store.delta mapping stem = .ok deltas
  settled : ∀ deltas count last, store.delta mapping stem = .ok deltas →
    unsetRange (some (deltas.getD ∅).removed) stem later = (.ok count, last) →
      last.delta mapping stem = .ok none

section Update

variable {store later : Store} {contents : Database}

theorem set_each_follows (pairs : List (String × Value)) (stem : String) :
    Follows (setEach pairs stem)
      (Plan.carryOut (pairs.map fun pair => ⟨stem ++ pair.1, some pair.2.storedText⟩)) := by
  apply for_each_follows
  intro pair
  exact set_follows (stem ++ pair.1) pair.2

theorem set_each_found {pairs : List (String × Value)}
    (found : ∀ pair ∈ pairs, store.getRaw (stem ++ pair.1) = .ok (some pair.2.storedText)) :
    setEach pairs stem store = (.ok (), store) := by
  induction pairs with
  | nil => rfl
  | cons head tail hypothesis =>
      obtain ⟨first, rest⟩ := List.forall_mem_cons.1 found
      have kept : set (stem ++ head.1) head.2 store = (.ok (), store) := set_text_found first
      exact (Attempt.bind_ok kept).trans (hypothesis rest)

theorem Sees.set_each (sees : store.Sees contents)
    (ran : update mapping stem store = (.ok (), later)) {pairs : List (String × Value)}
    (perm : pairs.Perm mapping.entries) : setEach pairs stem store = (.ok (), later) := by
  have same : ∀ write, write ∈ (pairs.map fun pair =>
      (⟨stem ++ pair.1, some pair.2.storedText⟩ : Write)) ↔ write ∈ updateWrites mapping stem :=
    fun _ => (perm.map _).mem_iff
  rcases sees.allowed with editable | barred
  · rw [editable.run (update_follows mapping stem)] at ran
    rw [editable.run (set_each_follows pairs stem), ← ran]
    simp only [Plan.carryOut]
    rw [Database.assign_all_congr contents _ (update_writes_agreeing mapping stem) same]
  · obtain ⟨rfl, _, present⟩ := barred.success (update_follows mapping stem) sees.visible ran
    apply set_each_found
    intro pair member
    rw [get_raw_eq sees.visible]
    have listed := (same ⟨stem ++ pair.1, some pair.2.storedText⟩).1
      (List.mem_map.2 ⟨pair, member, rfl⟩)
    exact congrArg Except.ok (present _ listed)

theorem removed_of_delta {before : Option Object} {deltas : Option DeltaSet}
    (ranged : store.getRange stem true = .ok before)
    (told : store.delta mapping stem = .ok deltas) :
    (deltas.getD ∅).removed = (computeDelta (before.getD ∅) mapping).removed := by
  unfold delta at told
  rw [ranged] at told
  cases told
  by_cases empty : (computeDelta (before.getD ∅) mapping).isEmpty = true
  · rw [if_pos empty, DeltaSet.eq_empty empty]
    rfl
  · rw [if_neg empty, Option.getD_some]

/-- What an update that succeeds has done. -/
theorem Sees.overrides (sees : store.Sees contents)
    (upToDate : ∀ revision, store.handle.revision = some revision → contents.UpToDate revision)
    (plain : '\x00' ∉ stem.toList) (readable : Readable contents.live stem)
    (storable : Storable mapping) (ran : update mapping stem store = (.ok (), later)) :
    ∃ left, store.Overrides contents mapping stem later left := by
  have after := (sees.after (update_follows mapping stem) ran).2
  let left := contents.assignAll store.handle.revision (updateWrites mapping stem)
  have live : left.live = contents.live.changeAll (updateWrites mapping stem) :=
    Database.live_assign_all _ _ _
  obtain ⟨before, ranged⟩ := readable.get_range
  have looked := (get_range_looks_at_live stem true).seen sees.visible
  have rereadable := storable.rereadable
  have agreeing := update_writes_agreeing mapping stem
  refine ⟨left, ?_⟩
  constructor
  · exact fun pairs perm => sees.set_each ran perm
  · exact after.visible
  · obtain ⟨read, readBack, overridden⟩ := overridden_range plain rereadable ranged
    refine ⟨before, read, looked.trans ranged, ?_, overridden⟩
    rw [(get_range_looks_at_live stem true).seen after.visible]
    exact live ▸ readBack
  · intro key apart
    have text : left.live.get? key = contents.live.get? key := by
      rw [live]
      exact get?_after_update_of_ne apart
    refine ⟨text, fun revision => ?_⟩
    by_contra changed
    rw [live] at text
    exact ((Database.row_changed_iff upToDate agreeing revision key).1 changed).2 text
  · intro revision key
    rw [← changed_by_update_iff]
    exact Database.row_changed_iff upToDate agreeing revision key
  · intro revision key changed
    have written := (Database.row_changed_iff upToDate agreeing revision key).1 changed
    rw [live]
    exact (Database.row_assign_all_agreeing contents _ agreeing revision key).trans
      (if_pos written)
  · unfold delta
    rw [looked.trans ranged]
    exact ⟨_, rfl⟩
  · intro deltas count last told removed
    have emptied := (after.after (unset_range_follows _ stem) removed).2
    have stored := stored_after_removal mapping plain ranged
    have nothing : (computeDelta mapping mapping).isEmpty = true :=
      compute_delta_empty_iff.2 (Value.alike_refl storable.sorted)
    rw [← removed_of_delta (looked.trans ranged) told, ← live] at stored
    rw [(delta_looks_at_live mapping stem).seen emptied.visible, Database.live_assign_all]
    exact (stored.delta plain rereadable mapping).trans (congrArg Except.ok (if_pos nothing))

end Update

end Store

namespace Fleet

variable {Name : Type} [DecidableEq Name]

/-- What an update does at a store that sees contents. It succeeds if nothing stands against
writing, and so does the removal after it. -/
theorem Reachable.update_overrides {fleet : Fleet Name} (reachable : fleet.Reachable)
    {name : Name} {handle : Handle} (named : fleet.handles name = some handle)
    {contents : Database}
    (visible : (Store.mk handle fleet.file).view Schema.liveTable = .ok contents)
    {stem : String} (plain : '\x00' ∉ stem.toList) (readable : Readable contents.live stem)
    {mapping : Object} (storable : Storable mapping) :
    (∀ later, Store.update mapping stem ⟨handle, fleet.file⟩ = (.ok (), later) →
      ∃ left, (Store.mk handle fleet.file).Overrides contents mapping stem later left) ∧
    (fleet.MayWrite name handle → ∃ later left,
      Store.update mapping stem ⟨handle, fleet.file⟩ = (.ok (), later) ∧
      (Store.mk handle fleet.file).Overrides contents mapping stem later left ∧
      ∀ names, ∃ count last, Store.unsetRange (some names) stem later = (.ok count, last)) := by
  have coherent := reachable.coherent.handles named
  have sees := Store.sees_of_view coherent visible
  have upToDate : ∀ revision, handle.revision = some revision → contents.UpToDate revision := by
    intro revision active
    cases coherent with
    | closed | idle => cases active
    | writing location readOnly opened =>
        cases active
        cases visible
        exact reachable.up_to_date ⟨location, readOnly, named⟩
  refine ⟨fun later ran => sees.overrides upToDate plain readable storable ran, fun may => ?_⟩
  have editable := reachable.editable may visible
  have ran := editable.run (Store.update_follows mapping stem)
  obtain ⟨left, overrides⟩ := sees.overrides upToDate plain readable storable ran
  refine ⟨_, left, ran, overrides, fun names => ?_⟩
  exact ⟨_, _, (editable.assigned _).run (Store.unset_range_follows (some names) stem)⟩

def nestedStem : Fleet Nat :=
  (ofFile .fresh).run
    [(0, .connect .memory false),
      (0, .perform (.ask (.update (.ofList [("a", .null), ("p.b", .null)]) "p."))),
      (0, .perform (.enter (.scope ⟨"install", "today"⟩)))]

def nestedMapping : Object := .ofList [("", .bool true), ("a", .null), ("p.c", .bool false)]

theorem nested_stem_overridden :
    ∃ handle later left,
      Store.update nestedMapping "p." ⟨handle, nestedStem.file⟩ = (.ok (), later) ∧
        (Store.mk handle nestedStem.file).Overrides (nestedStem.seen 0) nestedMapping "p."
          later left := by
  have storable : Storable nestedMapping :=
    storable_of_members ⟨trivial, trivial, trivial, trivial⟩ (by decide)
      ⟨trivial, trivial, trivial, trivial⟩
  have reachable : nestedStem.Reachable := ((Reachable.fresh.step 0 _).step 0 _).step 0 _
  have holds : nestedStem.Holds 0 1 (nestedStem.seen 0) := ⟨_, _, rfl⟩
  have may : nestedStem.MayWrite 0 _ :=
    ⟨rfl, rfl, fun _ _ _ held => reachable.coherent.alone held holds⟩
  have nulls : ∀ row ∈ (nestedStem.seen 0).live.entries, row.2 = "null" := by decide +kernel
  have readable : Readable (nestedStem.seen 0).live "p." := fun name text found =>
    Store.nulls_decode nulls ("p." ++ name) text found
  obtain ⟨later, left, ran, overrides, _⟩ :=
    (reachable.update_overrides may.named rfl (by decide) readable storable).2 may
  exact ⟨_, later, left, ran, overrides⟩

end Fleet

end UnitState
