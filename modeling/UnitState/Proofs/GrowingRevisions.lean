import Mathlib.Data.List.DropRight
import UnitState.Proofs.Branches
import UnitState.Proofs.CharmRevisions
import UnitState.Proofs.KeyHistory
import UnitState.Proofs.ToldChanges

/-!
# The growing list of the charm's revisions

Over a row of hooks on one store, whose bodies leave the key of the charm's revisions alone, the
list under the key only grows. A hook that is committed leaves the list as it was, or puts one
revision behind it; in either case the revision of its charm is then in the list. A hook that fails
leaves everything as it was. So no revision is in the list twice, and the history of the key has
one row for each of them.
-/

set_option autoImplicit false

namespace UnitState

open Json

/-! ## The revision of a charm -/

namespace Text

theorem trim_blank_shape (characters : List Char) :
    ∃ before after, characters = before ++ trimBlank characters ++ after ∧
      ∀ character ∈ before ++ after, isBlank character = true := by
  have trimmed : trimBlank characters = (characters.dropWhile isBlank).rdropWhile isBlank := rfl
  refine ⟨characters.takeWhile isBlank, (characters.dropWhile isBlank).rtakeWhile isBlank, ?_, ?_⟩
  · rw [trimmed, List.append_assoc, List.rdropWhile_append_rtakeWhile,
      List.takeWhile_append_dropWhile]
  · intro character member
    rcases List.mem_append.1 member with before | after
    · exact List.mem_takeWhile_imp before
    · exact List.mem_rtakeWhile_imp after

theorem trim_blank_head {characters : List Char} {head : Char}
    (starts : (trimBlank characters).head? = some head) : isBlank head = false := by
  obtain ⟨after, whole⟩ : trimBlank characters <+: characters.dropWhile isBlank :=
    List.rdropWhile_prefix isBlank (characters.dropWhile isBlank)
  obtain ⟨tail, shape⟩ := List.head?_eq_some_iff.1 starts
  rw [shape, List.cons_append] at whole
  exact drop_while_blank_head whole.symm

theorem trim_blank_last {characters : List Char} {last : Char}
    (ends : (trimBlank characters).getLast? = some last) : isBlank last = false := by
  obtain ⟨earlier, shape⟩ := List.getLast?_eq_some_iff.1 ends
  have backwards := congrArg List.reverse shape
  rw [trimBlank, List.reverse_reverse, List.reverse_concat] at backwards
  exact drop_while_blank_head backwards

end Text

structure Trimmed (text : String) : Prop where
  nonempty : text ≠ ""
  head : ∀ character, text.toList.head? = some character → Text.isBlank character = false
  last : ∀ character, text.toList.getLast? = some character → Text.isBlank character = false

/-- The revision of a charm by its file: what stands there between white space, or zero if there is
no file or nothing but white space in it. -/
inductive OwnRevision : Except FileFault String → String → Prop
  | missing : OwnRevision (.error .notFound) "0"
  | blank {contents : String}
      (blank : ∀ character ∈ contents.toList, Text.isBlank character = true) :
      OwnRevision (.ok contents) "0"
  | given {contents before revision after : String} (shape : contents = before ++ revision ++ after)
      (blank : ∀ character ∈ before.toList ++ after.toList, Text.isBlank character = true)
      (trimmed : Trimmed revision) : OwnRevision (.ok contents) revision

namespace OwnRevision

theorem trimmed {file : Except FileFault String} {revision : String}
    (own : OwnRevision file revision) : Trimmed revision := by
  have zero : Trimmed "0" := by
    refine ⟨by decide, fun character same => ?_, fun character same => ?_⟩ <;>
      · cases same
        rfl
  cases own with
  | missing => exact zero
  | blank => exact zero
  | given _ _ trimmed => exact trimmed

theorem of_read {file : Except FileFault String} {revision : String}
    (known : Store.charmRevision file = .ok revision) : OwnRevision file revision := by
  cases file with
  | error fault =>
      cases fault <;> cases known
      exact .missing
  | ok contents =>
      obtain ⟨before, after, shape, blank⟩ := Text.trim_blank_shape contents.toList
      have characters : (Text.trim contents).toList = Text.trimBlank contents.toList :=
        String.toList_ofList
      rw [← characters] at shape
      simp only [Store.charmRevision, Except.ok.injEq] at known
      split at known
      · rename_i empty
        subst known
        rw [String.isEmpty_iff.1 empty, String.toList_empty, List.append_nil] at shape
        exact .blank (shape ▸ blank)
      · rename_i nonempty
        subst known
        refine @OwnRevision.given contents (.ofList before) _ (.ofList after) ?_ ?_ ?_
        · apply String.toList_injective
          simpa only [String.toList_append, String.toList_ofList] using shape
        · simpa only [String.toList_ofList] using blank
        · refine ⟨fun empty => nonempty (String.isEmpty_iff.2 empty), ?_, ?_⟩
          · rw [characters]
            exact fun _ => Text.trim_blank_head
          · rw [characters]
            exact fun _ => Text.trim_blank_last

end OwnRevision

/-! ## One hook's part of the list -/

theorem revisions_text_injective {revisions other : List String}
    (same : revisionsText revisions = revisionsText other) : revisions = other := by
  have read := revisions_text_read revisions
  rw [same, revisions_text_read other] at read
  exact (Except.ok.inj read).symm

theorem revisions_text_parsed (revisions : List String) :
    Value.parse (revisionsText revisions) = .ok (.array (revisions.map Value.string)) := by
  apply Value.parse_stored_text (revisions_canonical revisions)
  · have shallow : Value.depthItems (revisions.map Value.string) ≤ 0 := by
      apply Value.depth_items_le_iff.2
      intro item member
      obtain ⟨revision, _, rfl⟩ := List.mem_map.1 member
      exact Nat.le_refl 0
    rw [Value.depth]
    exact Nat.succ_le_succ (shallow.trans (Nat.zero_le _))
  · apply Value.every_number_items_iff.2
    intro item member
    obtain ⟨revision, _, rfl⟩ := List.mem_map.1 member
    trivial

def storedRevisions (revisions : List String) : Option String :=
  if revisions = [] then none else some (revisionsText revisions)

namespace Store

/-- What a hook with a charm's revision, or without one, makes of a list of revisions, and what it
writes for that. -/
inductive Appends (revisionFile : Option (Except FileFault String)) (revisions : List String) :
    List Write → List String → Prop
  | kept (known : ∀ file, revisionFile = some file →
      ∃ revision, charmRevision file = .ok revision ∧ revision ∈ revisions) :
      Appends revisionFile revisions [] revisions
  | appended {file : Except FileFault String} {revision : String}
      (given : revisionFile = some file) (known : charmRevision file = .ok revision)
      (fresh : revision ∉ revisions) :
      Appends revisionFile revisions
        [⟨charmRevisionsKey, some (revisionsText (revisions ++ [revision]))⟩]
        (revisions ++ [revision])

section Appends

variable {live : Table String String} {revisions : List String} {writes : List Write}

theorem get_stored_revisions {Result : Type} {read : String → Except Fault Result}
    {result : Result} (stored : live.get? charmRevisionsKey = storedRevisions revisions)
    (reads : read (revisionsText revisions) = .ok result) :
    (holding live).getWith read charmRevisionsKey =
      .ok (if revisions = [] then none else some result) := by
  unfold storedRevisions at stored
  split at stored
  · rename_i empty
    rw [if_pos empty]
    exact get_with_absent read stored
  · rename_i nonempty
    rw [if_neg nonempty]
    exact get_with_found stored reads

theorem charm_plan_appends {file : Except FileFault String}
    (stored : live.get? charmRevisionsKey = storedRevisions revisions)
    (planned : charmPlan file live = (.ok (), writes)) :
    ∃ extended, Appends (some file) revisions writes extended := by
  have looked := get_stored_revisions stored (revisions_text_read revisions)
  have whole : (if revisions = [] then none else some revisions).getD [] = revisions := by
    split
    · rename_i empty
      exact empty.symm
    · rfl
  obtain ⟨revision, _, _, read, rest, rfl⟩ := Plan.of_bind_ok planned
  obtain ⟨known, rfl⟩ := Prod.mk.inj read
  obtain ⟨seen, _, _, look, written, rfl⟩ := Plan.of_bind_ok rest
  obtain ⟨same, rfl⟩ := Prod.mk.inj look
  obtain rfl := Except.ok.inj (looked.symm.trans same)
  simp only [whole] at written
  split at written
  · rename_i contained
    cases written
    refine ⟨_, .kept fun other given => ?_⟩
    cases given
    exact ⟨revision, known, List.contains_iff_mem.1 contained⟩
  · rename_i missing
    cases written
    exact ⟨_, .appended rfl known fun member => missing (List.contains_iff_mem.2 member)⟩

theorem invocation_plan_appends {invocation : Invocation}
    {revisionFile : Option (Except FileFault String)} {changes : HookChanges}
    (stored : live.get? charmRevisionsKey = storedRevisions revisions)
    (planned : invocationPlan invocation revisionFile live = (.ok changes, writes)) :
    ∃ extended charm rest, writes = charm ++ rest ∧
      Appends revisionFile revisions charm extended ∧
        ∀ write ∈ rest, write.key ≠ charmRevisionsKey := by
  have apart : ∀ texts, ∀ write ∈ (afterCharmPlan invocation texts).2,
      write.key ≠ charmRevisionsKey := by
    intro texts write member key
    have tag := (after_charm_plan_tagged invocation).tagged texts write member
    rw [key] at tag
    exact absurd tag (by decide)
  cases revisionFile with
  | none =>
      have rest : afterCharmPlan invocation live = (.ok changes, writes) := planned
      have others := apart live
      rw [rest] at others
      exact ⟨revisions, [], writes, rfl, .kept nofun, others⟩
  | some file =>
      obtain ⟨_, charm, rest, charmed, after, rfl⟩ := Plan.of_bind_ok planned
      obtain ⟨extended, appends⟩ := charm_plan_appends stored charmed
      have others := apart (live.changeAll charm)
      have afterCharm : afterCharmPlan invocation (live.changeAll charm) = (.ok changes, rest) :=
        after
      rw [afterCharm] at others
      exact ⟨extended, charm, rest, rfl, appends, others⟩

end Appends

end Store

/-! ## The rows of the list -/

namespace Database

theorem records_of_assign_all {key : String} {writes : List Write}
    (apart : ∀ write ∈ writes, write.key ≠ key) (contents : Database) (current : Int) :
    (contents.assignAll (some current) writes).recordsOf key = contents.recordsOf key := by
  apply Table.ext_get?
  intro revision
  rw [get?_records_of, get?_records_of]
  apply history_assign_all_of_ne
  intro write member same
  exact apart write member (congrArg Prod.snd same).symm

theorem Sound.records_of_changed {contents : Database} (sound : contents.Sound) (row : HookRow)
    {write : Write} (changed : contents.live.get? write.key ≠ write.data) :
    (((contents.revised row).assignAll (some (contents.sequence + 1)) [write]).recordsOf
        write.key).entries =
      (contents.recordsOf write.key).entries ++ [(contents.sequence + 1, write.data)] := by
  have inserted : ((contents.revised row).assignAll (some (contents.sequence + 1))
      [write]).recordsOf write.key =
        (contents.recordsOf write.key).insert (contents.sequence + 1) write.data := by
    apply Table.ext_get?
    intro revision
    rw [get?_records_of]
    by_cases new : revision = contents.sequence + 1
    · rw [new, Table.get?_insert_self]
      exact history_assign_changed (contents.revised row) _ changed
    · rw [Table.get?_insert_of_ne _ _ new, get?_records_of]
      exact history_assign_all_other (contents.revised row) new write.key [write]
  rw [inserted]
  apply Table.place_last
  intro binding member
  have recorded := Table.get?_eq_some_iff.2 member
  rw [get?_records_of] at recorded
  have bound := sound.bounded _ (sound.recorded _ _ _ recorded)
  exact decide_eq_true (by omega)

end Database

/-! ## Contents with a list -/

/-- Contents in which the list of revisions has come to these, from other contents in which it was
empty. -/
structure Grown (first contents : Database) (revisions : List String) : Prop where
  stored : contents.live.get? Store.charmRevisionsKey = storedRevisions revisions
  distinct : revisions.Nodup
  trimmed : ∀ revision ∈ revisions, Trimmed revision
  /-- Each of them has a row of its own, with the list that it has closed. -/
  recorded : ∃ rows, (contents.recordsOf Store.charmRevisionsKey).entries =
      (first.recordsOf Store.charmRevisionsKey).entries ++ rows ∧
    rows.length = revisions.length ∧
      ∀ (index : Nat) (row : Int × Option String), rows[index]? = some row →
        row.2 = some (revisionsText (revisions.take (index + 1)))

namespace Grown

variable {first contents : Database} {revisions : List String}

theorem start (absent : first.live.get? Store.charmRevisionsKey = none) : Grown first first [] where
  stored := absent
  distinct := .nil
  trimmed _ member := nomatch member
  recorded := ⟨[], (List.append_nil _).symm, rfl, nofun⟩

theorem assign_all (grown : Grown first contents revisions) {writes : List Write}
    (apart : ∀ write ∈ writes, write.key ≠ Store.charmRevisionsKey) (current : Int) :
    Grown first (contents.assignAll (some current) writes) revisions where
  stored := by
    rw [Database.live_assign_all, Table.get?_change_all_of_ne apart]
    exact grown.stored
  distinct := grown.distinct
  trimmed := grown.trimmed
  recorded := by
    rw [Database.records_of_assign_all apart]
    exact grown.recorded

/-- A revision that is not in the list yet is put behind it under a new revision of the store. -/
theorem append (grown : Grown first contents revisions) (sound : contents.Sound) (row : HookRow)
    {revision : String} (fresh : revision ∉ revisions) (trimmed : Trimmed revision) :
    Grown first ((contents.revised row).assignAll (some (contents.sequence + 1))
      [⟨Store.charmRevisionsKey, some (revisionsText (revisions ++ [revision]))⟩])
      (revisions ++ [revision]) where
  stored := by
    rw [Database.live_assign_all, storedRevisions, if_neg (List.concat_ne_nil _ _)]
    exact Table.get?_insert_self _ _ _
  distinct := by
    refine List.nodup_append.2 ⟨grown.distinct, List.pairwise_singleton _ revision, ?_⟩
    rintro other member _ last rfl
    exact fresh (List.mem_singleton.1 last ▸ member)
  trimmed other member := by
    rcases List.mem_append.1 member with earlier | last
    · exact grown.trimmed other earlier
    · rw [List.mem_singleton.1 last]
      exact trimmed
  recorded := by
    obtain ⟨rows, entries, count, prefixes⟩ := grown.recorded
    have changed : contents.live.get? Store.charmRevisionsKey ≠
        some (revisionsText (revisions ++ [revision])) := by
      rw [grown.stored, storedRevisions]
      split
      · exact nofun
      · intro same
        have lengths := congrArg List.length (revisions_text_injective (Option.some.inj same))
        simp at lengths
    refine ⟨rows ++ [(contents.sequence + 1, some (revisionsText (revisions ++ [revision])))],
      ?_, ?_, ?_⟩
    · rw [sound.records_of_changed row changed, entries, List.append_assoc]
    · rw [List.length_append, List.length_append, count]
      rfl
    · intro index row found
      rcases Nat.lt_or_ge index rows.length with earlier | later
      · rw [List.getElem?_append_left earlier] at found
        rw [List.take_append_of_le_length (by omega)]
        exact prefixes index row found
      · rw [List.getElem?_append_right later, List.getElem?_singleton] at found
        split at found
        · rename_i last
          cases found
          rw [List.take_of_length_le]
          rw [List.length_append, List.length_singleton]
          omega
        · cases found

theorem appends (grown : Grown first contents revisions) (sound : contents.Sound) (row : HookRow)
    {revisionFile : Option (Except FileFault String)} {charm : List Write}
    {extended : List String} (appends : Store.Appends revisionFile revisions charm extended) :
    Grown first ((contents.revised row).assignAll (some (contents.sequence + 1)) charm)
      extended := by
  cases appends with
  | kept => exact ⟨grown.stored, grown.distinct, grown.trimmed, grown.recorded⟩
  | appended given known fresh =>
      exact grown.append sound row fresh (OwnRevision.of_read known).trimmed

end Grown

/-! ## Rows of hooks -/

namespace HookCall

variable {Result : Type}

def SparesList (call : HookCall Result) (store : Store) : Prop :=
  ∀ revision changes opened, Store.enter call.entry store = (.ok (revision, changes), opened) →
    ∀ write ∈ (call.body revision changes).writes opened, write.key ≠ Store.charmRevisionsKey

/-- What a call that ends in this way makes of a list of revisions. -/
structure Extends (call : HookCall Result) (ending : Ending StoreError Result)
    (revisions extended : List String) : Prop where
  committed : ∀ result, ending = .returned result →
    extended = revisions ∨ ∃ revision, extended = revisions ++ [revision]
  own : ∀ result file, ending = .returned result → call.revisionFile = some file →
    ∃ revision, OwnRevision file revision ∧ revision ∈ extended
  uncommitted : (∀ result, ending ≠ .returned result) → extended = revisions

theorem extends_of_appends {call : HookCall Result} {ending : Ending StoreError Result}
    {result : Result} (returned : ending = .returned result) {revisions extended : List String}
    {charm : List Write} (appends : Store.Appends call.revisionFile revisions charm extended) :
    call.Extends ending revisions extended := by
  refine ⟨fun _ _ => ?_, fun _ file _ given => ?_, fun unreturned => absurd returned (unreturned _)⟩
  · cases appends with
    | kept => exact .inl rfl
    | @appended _ revision => exact .inr ⟨revision, rfl⟩
  · cases appends with
    | kept known =>
        obtain ⟨revision, read, member⟩ := known file given
        exact ⟨revision, .of_read read, member⟩
    | appended known read =>
        obtain rfl := Option.some.inj (known.symm.trans given)
        exact ⟨_, .of_read read, List.mem_concat_self⟩

theorem extends_list {call : HookCall Result} {first : Database} {store : Store}
    {revisions : List String} (sound : store.file.contents.Sound)
    (grown : Grown first store.seen revisions) (spares : call.SparesList store) :
    ∃ extended, (call.run store).2.file.contents.Sound ∧
      Grown first (call.run store).2.seen extended ∧
        call.Extends (call.run store).1 revisions extended := by
  have whole := call.whole_or_nothing store
  by_cases returned : ∃ result, (call.run store).1 = .returned result
  · obtain ⟨result, returned⟩ := returned
    obtain ⟨changes, opened, entered, left⟩ := whole.whole result returned
    rcases Store.enter_cases call.entry store with ⟨error, refused⟩ | ⟨free, opening, opens, _⟩
    · rw [refused] at entered
      cases entered
    · rw [free.seen] at grown
      obtain ⟨extended, charm, rest, writes, appends, apart⟩ :=
        Store.invocation_plan_appends grown.stored (Entry.opening_planned opens)
      have others : ∀ write ∈ rest ++
          (call.body (store.file.contents.sequence + 1) changes).writes opened,
          write.key ≠ Store.charmRevisionsKey := by
        intro write member
        rcases List.mem_append.1 member with bookkept | own
        · exact apart write bookkept
        · exact spares _ _ _ entered write own
      refine ⟨extended, ?_, ?_, extends_of_appends returned appends⟩
      · rw [left]
        exact ((sound.revised call.row).assign_all _).sound
      · have after := (grown.appends sound call.row appends).assign_all others
          (store.file.contents.sequence + 1)
        rw [left, free.seen_with_contents, Store.afterScope, writes, List.append_assoc,
          Database.assign_all_append]
        exact after
  · have unreturned := not_exists.1 returned
    rw [whole.nothing unreturned]
    exact ⟨revisions, sound, grown, fun result same => absurd same (unreturned result),
      fun result _ same => absurd same (unreturned result), fun _ => rfl⟩

end HookCall

namespace Store

variable {Result : Type}

def afterCalls (store : Store) (calls : List (HookCall Result)) : Store :=
  calls.foldl (fun store call => (call.run store).2) store

def SparesList (store : Store) : List (HookCall Result) → Prop
  | [] => True
  | call :: later => call.SparesList store ∧ (call.run store).2.SparesList later

/-- What a store has under the key of the revisions, and tells of it, after it had nothing there. -/
structure HasList (first store : Store) (revisions : List String) : Prop where
  grown : Grown first.seen store.seen revisions
  told : ∀ found, store.get charmRevisionsKey = .ok found →
    found = if revisions = [] then none else some (.array (revisions.map Value.string))

theorem HasList.of_grown {first store : Store} {revisions : List String}
    (grown : Grown first.seen store.seen revisions) : HasList first store revisions := by
  refine ⟨grown, fun found asked => ?_⟩
  cases visible : store.view Schema.liveTable with
  | error error =>
      rw [get, getWith, getRaw, visible] at asked
      cases asked
  | ok contents =>
      have known := grown.stored
      rw [← seen_of_view visible] at known
      have looked := get_stored_revisions known (revisions_text_parsed revisions)
      have through := (get_with_looks_at_live Value.parse charmRevisionsKey).seen visible
      exact Except.ok.inj (asked.symm.trans (through.trans looked))

theorem SparesList.split {store : Store} {earlier later : List (HookCall Result)}
    {call : HookCall Result} (spares : store.SparesList (earlier ++ call :: later)) :
    store.SparesList earlier ∧ call.SparesList (store.afterCalls earlier) := by
  induction earlier generalizing store with
  | nil => exact ⟨trivial, spares.1⟩
  | cons head tail hypothesis =>
      obtain ⟨before, turn⟩ := hypothesis spares.2
      exact ⟨⟨spares.1, before⟩, turn⟩

/-- A row of calls keeps the list that has come about. -/
theorem grown_after_calls {first store : Store} {revisions : List String}
    (sound : store.file.contents.Sound) (grown : Grown first.seen store.seen revisions)
    {calls : List (HookCall Result)} (spares : store.SparesList calls) :
    (store.afterCalls calls).file.contents.Sound ∧
      ∃ extended, Grown first.seen (store.afterCalls calls).seen extended := by
  induction calls generalizing store revisions with
  | nil => exact ⟨sound, revisions, grown⟩
  | cons call later hypothesis =>
      obtain ⟨extended, soundAfter, grownAfter, _⟩ := call.extends_list sound grown spares.1
      exact hypothesis soundAfter grownAfter spares.2

end Store

/-- Over a row of calls on a store that has nothing under the key of the revisions, each call leaves
the list there as it was or puts one revision behind it. -/
theorem Fleet.Reachable.revisions_grow {Name Result : Type} [DecidableEq Name] {fleet : Fleet Name}
    (reachable : fleet.Reachable) {name : Name} {handle : Handle}
    (named : fleet.handles name = some handle)
    (absent : (fleet.seen name).live.get? Store.charmRevisionsKey = none)
    (earlier : List (HookCall Result)) (call : HookCall Result)
    (spares : Store.SparesList ⟨handle, fleet.file⟩ (earlier ++ [call])) :
    let first : Store := ⟨handle, fleet.file⟩
    let before := first.afterCalls earlier
    let ran := call.run before
    ∃ revisions extended, first.HasList before revisions ∧ first.HasList ran.2 extended ∧
      call.Extends ran.1 revisions extended := by
  intro first before ran
  obtain ⟨sparesEarlier, sparesCall⟩ := spares.split
  have seen : fleet.seen name = first.seen := by simp only [Fleet.seen, named, first]
  rw [seen] at absent
  obtain ⟨sound, revisions, grown⟩ :=
    Store.grown_after_calls reachable.coherent.sound (Grown.start absent) sparesEarlier
  obtain ⟨extended, _, grownAfter, told⟩ := call.extends_list sound grown sparesCall
  exact ⟨revisions, extended, .of_grown grown, .of_grown grownAfter, told⟩

def charmCall (file : Except FileFault String) (ending : Ending StoreError Unit) :
    HookCall Unit where
  row := ⟨"upgrade-charm", "today"⟩
  invocation := {
    hookName := "upgrade-charm", unit := some "web/0", relationId := none
    charmDirectory := some "/charm", environment := ∅, config := ∅, relations := ∅ }
  revisionFile := some file
  body _ _ := .perform (.ask (.set "charm" (.string "web"))) rfl fun _ => .done ending

theorem charm_call_spares (file : Except FileFault String) (ending : Ending StoreError Unit)
    (store : Store) : (charmCall file ending).SparesList store := by
  intro revision changes opened _ write member
  rw [List.mem_singleton.1 member]
  decide

/-- A revision that came with a crash is not in the list, and a missing file is zero. -/
theorem two_revisions_listed :
    let fleet := ((Fleet.ofFile .fresh : Fleet Nat).step 0 (.connect .memory false)).2
    let first : Store := ⟨.ofLocation .memory false, fleet.file⟩
    let before := first.afterCalls
      [charmCall (.ok " 7\n") (.returned ()), charmCall (.ok "8") .crashed]
    let ran := (charmCall (.error .notFound) (.returned ())).run before
    before.seen.live.get? Store.charmRevisionsKey = some (revisionsText ["7"]) ∧
      ran.2.seen.live.get? Store.charmRevisionsKey = some (revisionsText ["7", "0"]) ∧
        ∃ revisions extended, first.HasList before revisions ∧ first.HasList ran.2 extended ∧
          (charmCall (.error .notFound) (.returned ())).Extends ran.1 revisions extended := by
  intro fleet first before ran
  refine ⟨by decide +kernel, by decide +kernel, ?_⟩
  have opened : fleet.Reachable := .step .fresh 0 (.connect .memory false)
  have named : fleet.handles 0 = some (.ofLocation .memory false) := rfl
  exact opened.revisions_grow named rfl
    [charmCall (.ok " 7\n") (.returned ()), charmCall (.ok "8") .crashed]
    (charmCall (.error .notFound) (.returned ()))
    ⟨charm_call_spares _ _ _, charm_call_spares _ _ _, charm_call_spares _ _ _, trivial⟩

end UnitState
