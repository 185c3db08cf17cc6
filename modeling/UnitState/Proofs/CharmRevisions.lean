import UnitState.Proofs.Coherence
import UnitState.Proofs.ReadableRows
import UnitState.Proofs.RecordReading

/-!
# The list of the charm's revisions

The bookkeeping of a hook keeps the revisions of the charm as a list of strings under a key of
its own. As long as nobody else writes the key, whatever the stores of a fleet do, every scope
and the committed contents have such a list there or nothing, and the next hook can read it.
-/

set_option autoImplicit false

namespace UnitState

open Json

/-! ## Reading a list of strings -/

namespace Json

namespace Decoder

theorem texts_read (texts : List String) :
    (Decoder.list Decoder.text).run (Value.array (texts.map .string)).compact = .ok texts := by
  have starts : ∀ text ∈ texts, Value.Starts (stringText text) :=
    fun text _ => Value.compact_starts (.string text)
  have items := Reader.list_reads starts
    (fun text _ rest _ => text_reads text (nestingLimit - 1) rest) []
  have shape : (Value.array (texts.map .string)).compactChars =
      '[' :: separated stringText texts ++ [']'] := by
    rw [Value.compactChars, Value.compact_items_eq, separated_map]
    rfl
  apply Reader.read_all_reads
  rw [shape]
  rw [List.map_id'] at items
  exact (Reads.token_at rfl rfl items).located

end Decoder

end Json

/-! ## The list under its key -/

def revisionsText (revisions : List String) : String :=
  (Value.array (revisions.map Value.string)).storedText

theorem revisions_canonical (revisions : List String) :
    (Value.array (revisions.map Value.string)).Canonical := by
  apply Value.canonical_items_iff.2
  intro item member
  obtain ⟨revision, _, rfl⟩ := List.mem_map.1 member
  trivial

theorem revisions_text_read (revisions : List String) :
    (Decoder.list Decoder.text).run (revisionsText revisions) = .ok revisions := by
  rw [revisionsText, Value.storedText, Value.canonical_eq _ (revisions_canonical revisions)]
  exact Decoder.texts_read revisions

/-- Whether the key of the revisions has a list of them, or nothing. -/
def Listed (live : Table String String) : Prop :=
  ∀ text, live.get? Store.charmRevisionsKey = some text → ∃ revisions, text = revisionsText revisions

def Write.Lists (write : Write) : Prop :=
  write.key = Store.charmRevisionsKey → ∃ revisions, write.data = some (revisionsText revisions)

theorem Listed.change_all {live : Table String String} (listed : Listed live)
    {writes : List Write} (lists : ∀ write ∈ writes, write.Lists) :
    Listed (live.changeAll writes) := by
  intro text found
  rcases Table.get?_change_all_cases live writes Store.charmRevisionsKey with
    kept | ⟨write, member, key, given⟩
  · exact listed text (kept.symm.trans found)
  · obtain ⟨revisions, data⟩ := lists write member key
    rw [found, data] at given
    exact ⟨revisions, Option.some.inj given⟩

namespace Store

theorem charm_plan_succeeds {live : Table String String} (listed : Listed live)
    {file : Except FileFault String} {revision : String}
    (readable : charmRevision file = .ok revision) : (charmPlan file).Succeeds live := by
  have known : Plan.ofExcept (charmRevision file) live = (.ok revision, []) := by
    rw [Plan.ofExcept, readable]
  obtain ⟨stored, looked⟩ : ∃ stored, Plan.look (fun store =>
      store.getWith (Decoder.list Decoder.text).run charmRevisionsKey) live = (.ok stored, []) := by
    cases found : live.get? charmRevisionsKey with
    | none => exact ⟨none, congrArg (·, []) (get_with_absent _ found)⟩
    | some text =>
        obtain ⟨revisions, rfl⟩ := listed text found
        have read := get_with_found found (revisions_text_read revisions)
        exact ⟨some revisions, congrArg (·, []) read⟩
  refine Plan.Succeeds.bind known (Plan.Succeeds.bind looked ?_)
  simp only
  split <;> exact ⟨_, _, rfl⟩

end Store

namespace Plan

variable {Result Other : Type}

def Writes (plan : Plan Result) (kind : Write → Prop) : Prop :=
  ∀ live, ∀ write ∈ (plan live).2, kind write

theorem Writes.bind {plan : Plan Result} {next : Result → Plan Other} {kind : Write → Prop}
    (first : plan.Writes kind) (later : ∀ result, (next result).Writes kind) :
    (plan >>= next).Writes kind := by
  intro live write member
  have early := first live
  cases planned : plan live with
  | mk answer writes =>
      rw [planned] at early
      cases answer with
      | error error =>
          rw [bind_error planned] at member
          exact early write member
      | ok result =>
          rw [bind_ok planned] at member
          rcases List.mem_append.1 member with before | after
          · exact early write before
          · exact later result _ write after

theorem Writes.silent {plan : Plan Result} (nothing : ∀ live, (plan live).2 = [])
    (kind : Write → Prop) : plan.Writes kind := by
  intro live write member
  rw [nothing] at member
  cases member

end Plan

namespace Store

theorem charm_plan_lists (file : Except FileFault String) : (charmPlan file).Writes Write.Lists := by
  refine Plan.Writes.bind (.silent (fun _ => rfl) _) fun revision => ?_
  refine Plan.Writes.bind (.silent (fun _ => rfl) _) fun stored => ?_
  simp only
  split
  · exact .silent (fun _ => rfl) _
  · intro live write member _
    rw [List.mem_singleton.1 member]
    exact ⟨_, rfl⟩

theorem invocation_plan_lists (invocation : Invocation)
    (revisionFile : Option (Except FileFault String)) :
    (invocationPlan invocation revisionFile).Writes Write.Lists := by
  have rest : (afterCharmPlan invocation).Writes Write.Lists := by
    intro live write member key
    have tag := (after_charm_plan_tagged invocation).tagged live write member
    rw [key] at tag
    exact absurd tag (by decide)
  cases revisionFile with
  | some file => exact (charm_plan_lists file).bind fun _ => rest
  | none =>
      have noCharm : (pure () : Plan Unit).Writes Write.Lists := .silent (fun _ => rfl) _
      exact noCharm.bind fun _ => rest

end Store

theorem Entry.writes_list (entry : Entry) (live : Table String String) :
    ∀ write ∈ entry.writes live, write.Lists := by
  cases entry with
  | scope row => exact List.forall_mem_nil _
  | hook row invocation revisionFile =>
      exact Store.invocation_plan_lists invocation revisionFile live

/-! ## The list in a fleet -/

namespace Fleet

variable {Name : Type} [DecidableEq Name]

/-- The fleets that come about on a new file if nothing but the bookkeeping of hooks writes the key
of the revisions. -/
inductive KeepsList : Fleet Name → Prop
  | fresh : KeepsList (ofFile .fresh)
  | step {fleet : Fleet Name} (before : KeepsList fleet) (name : Name) (event : Event)
      (apart : ∀ write ∈ event.writes (fleet.seen name).live, write.key ≠ Store.charmRevisionsKey) :
      KeepsList (fleet.step name event).2
  | edit {fleet : Fleet Name} (before : KeepsList fleet) (edit : Edit) {file : DatabaseFile}
      (apart : ∀ text, edit ≠ .live Store.charmRevisionsKey text)
      (edited : fleet.file.edit edit = some file) : KeepsList { fleet with file := file }

structure ListedFleet (fleet : Fleet Name) : Prop where
  committed : Listed fleet.file.contents.live
  pending : ∀ {name revision pending}, fleet.Holds name revision pending → Listed pending.live

theorem KeepsList.reachable {fleet : Fleet Name} (keeps : fleet.KeepsList) : fleet.Reachable := by
  induction keeps with
  | fresh => exact .fresh
  | step _ name event _ hypothesis => exact .step hypothesis name event
  | edit _ edit _ edited hypothesis => exact .edit hypothesis edit edited

namespace ListedFleet

variable {fleet : Fleet Name}

theorem move (listed : fleet.ListedFleet) (coherent : fleet.Coherent) {name : Name}
    {event : Event} {answer : Option (Except StoreError Outcome)} {later : Fleet Name}
    (move : fleet.Move name event answer later)
    (apart : ∀ write ∈ event.writes (fleet.seen name).live, write.key ≠ Store.charmRevisionsKey) :
    later.ListedFleet := by
  have lists : ∀ write ∈ event.writes (fleet.seen name).live, write.Lists :=
    fun write member key => absurd key (apart write member)
  constructor
  · cases move with
    | unanswered | still | entered | inside | discarded | released => exact listed.committed
    | connected vacant connects =>
        rw [file_put, (connect_ok connects).2.1]
        exact listed.committed
    | wrote named free writing =>
        rw [(Outside.of_free named free).seen] at lists
        rw [Database.live_assign_all]
        exact listed.committed.change_all lists
    | committed _ holds => exact listed.pending holds
  · intro holder revision pending holds
    cases (move.continues coherent holds).2 with
    | kept held => exact listed.pending held
    | @entered entry opening _ _ _ opens =>
        -- an entry may write the key, but only with a list
        rw [(Entry.opening_ok opens).2, Database.live_assign_all]
        exact listed.committed.change_all (entry.writes_list _)
    | performed acts performs held =>
        subst acts performs
        rw [held.seen] at lists
        rw [Database.live_assign_all]
        exact (listed.pending held).change_all lists

omit [DecidableEq Name] in
theorem edit (listed : fleet.ListedFleet) {edit : Edit} {file : DatabaseFile}
    (apart : ∀ text, edit ≠ .live Store.charmRevisionsKey text)
    (edited : fleet.file.edit edit = some file) : ListedFleet { fleet with file := file } := by
  refine ⟨?_, listed.pending⟩
  unfold DatabaseFile.edit at edited
  split at edited
  · cases edited
  · cases edit with
    | live key text =>
        cases edited
        intro found bound
        have different : Store.charmRevisionsKey ≠ key := by
          rintro rfl
          exact apart text rfl
        apply listed.committed found
        rw [← bound]
        exact (Table.get?_insert_of_ne _ text different).symm
    | history key revision data =>
        simp only at edited
        split at edited
        · rename_i recorded
          cases edited
          unfold Database.record at recorded
          split at recorded
          · cases recorded
            exact listed.committed
          · cases recorded
        · cases edited
    | hook revision row =>
        obtain ⟨contents, added, rfl⟩ := Option.map_eq_some_iff.1 edited
        unfold Database.addHook at added
        split at added
        · cases added
        · cases added
          exact listed.committed
    | version version =>
        cases edited
        exact listed.committed

end ListedFleet

theorem KeepsList.listed {fleet : Fleet Name} (keeps : fleet.KeepsList) : fleet.ListedFleet := by
  induction keeps with
  | fresh =>
      constructor
      · intro text found
        cases found
      · intro name revision pending holds
        obtain ⟨_, _, named⟩ := holds
        cases named
  | step before name event apart hypothesis =>
      have coherent := before.reachable.coherent
      exact hypothesis.move coherent (step_move coherent name event).1 apart
  | edit _ edit apart edited hypothesis => exact hypothesis.edit apart edited

end Fleet

end UnitState
