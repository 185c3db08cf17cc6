import UnitState.Json.Decoder
import UnitState.Proofs.JsonRoundTrip

/-!
# Reading typed values

The decoders of typed values pass over the blanks in front of a value, so a value is read behind
blanks as it is without them. A record that is written as an object is read field by field: the
name of a field that is not set yet, and then its content, which changes the state of the record.
-/

set_option autoImplicit false

namespace UnitState.Json

def SkipsBlanks {Result : Type} (reader : Reader Result) : Prop :=
  ∀ cursor : Cursor, reader (skipSpaces cursor.position cursor.rest) = reader cursor

theorem skip_spaces_again (characters : List Char) (position : Position) :
    skipSpaces (skipSpaces position characters).position (skipSpaces position characters).rest =
      skipSpaces position characters := by
  induction characters generalizing position with
  | nil => rfl
  | cons head tail hypothesis =>
      cases space : isSpace head with
      | true => simpa only [skipSpaces, space, if_true] using hypothesis (position.after head)
      | false => simp only [skipSpaces, space, Bool.false_eq_true, if_false]

namespace SkipsBlanks

variable {Result : Type}

theorem token (next : Option Char → Reader Result) : SkipsBlanks (Reader.token >>= next) := by
  intro cursor
  have same : Reader.token (skipSpaces cursor.position cursor.rest) = Reader.token cursor := by
    simp only [Reader.token, skip_spaces_again]
  simp only [Bind.bind, Attempt.bind, same]

theorem located {reader : Reader Result} (skips : SkipsBlanks reader) :
    SkipsBlanks (Reader.located reader) := by
  intro cursor
  simp only [Reader.located, skips cursor]

end SkipsBlanks

theorem Reads.behind_blanks {Result : Type} {reader : Reader Result} (skips : SkipsBlanks reader)
    {blanks text rest : List Char} (blank : Blank blanks) {result : Result}
    (reads : Reads reader text result rest) : Reads reader (blanks ++ text) result rest := by
  intro position
  obtain ⟨middle, skipped⟩ := skip_blank blank (text ++ rest) position
  have same : reader ⟨blanks ++ text ++ rest, position⟩ = reader ⟨text ++ rest, middle⟩ := by
    rw [← skips ⟨blanks ++ text ++ rest, position⟩, ← skips ⟨text ++ rest, middle⟩,
      List.append_assoc, skipped]
  rw [same]
  exact reads middle

namespace Decoder

open Reader

theorem text_reads (text : String) (room : Nat) (rest : List Char) :
    Reads (Decoder.text room) (stringText text) text rest := by
  have reads := (Reader.string_reads text rest).last (Reads.pure text rest)
  exact (Reads.token_at rfl rfl reads).located

/-! ## Records -/

section Records

variable {State Result : Type} {fields : List (Field State)} {room count : Nat}
  {state next final : State}

theorem field_reads (first : Bool) (field : Field State) {gap content later rest : List Char}
    (gapped : Gap gap)
    (found : (fields.find? fun other => other.name == field.name) = some field)
    (unset : field.isSet state = false)
    (reads : Reads (field.read state room) content next (later ++ rest))
    (goesOn : Reads (fieldMembers fields room false next count) later final rest) :
    Reads (fieldMembers fields room first state (count + 1))
      ((if first then [] else [',']) ++
        (gap ++ (stringText field.name ++ ([':'] ++ (content ++ later))))) final rest := by
  have behind : Reads (do
      colon
      let changed ← field.read state room
      fieldMembers fields room false changed count) ([':'] ++ (content ++ later)) final rest :=
    (colon_reads _).bind (reads.bind goesOn)
  rw [← List.append_assoc]
  apply Reads.bind (next_key_reads first gapped _)
  apply (string_reads field.name _).bind
  simp only [found, unset]
  exact behind

theorem fields_end (first : Bool) (state : State) (count : Nat) {gap : List Char}
    (gapped : Gap gap) (rest : List Char) :
    Reads (fieldMembers fields room first state (count + 1)) gap state ('\x7d' :: rest) := by
  have ended : Reads (nextKey first) gap false ('\x7d' :: rest) := by
    apply Reads.skip_ahead gapped.blank
    · intro other same
      cases same
      rfl
    · exact Reads.pure false _
  exact ended.last (Reads.pure state _)

/-- The contents of fields, by name, from one state of a record to another. -/
inductive FieldsRead (fields : List (Field State)) (room : Nat) :
    State → List (String × List Char) → State → Prop
  | done (state : State) : FieldsRead fields room state [] state
  | field (field : Field State) {state next final : State} {content : List Char}
      {later : List (String × List Char)}
      (found : (fields.find? fun other => other.name == field.name) = some field)
      (unset : field.isSet state = false)
      (reads : ∀ rest, Delimited rest → Reads (field.read state room) content next rest)
      (further : FieldsRead fields room next later final) :
      FieldsRead fields room state ((field.name, content) :: later) final

def fieldText (gap : List Char) (entry : String × List Char) : List Char :=
  gap ++ (stringText entry.1 ++ ([':'] ++ entry.2))

theorem following_fields_delimited {inner outer : List Char} (outerGap : Gap outer)
    (entries : List (String × List Char)) (rest : List Char) :
    Delimited (following (fieldText inner) entries ++ outer ++ '\x7d' :: rest) := by
  cases entries with
  | nil => exact outerGap.delimited (.inr ⟨'\x7d', rest, rfl, .inr (.inr (.inl rfl))⟩)
  | cons head tail => exact .inr ⟨',', _, rfl, .inl rfl⟩

theorem fields_read {inner outer : List Char} (innerGap : Gap inner) (outerGap : Gap outer)
    {entries : List (String × List Char)} (read : FieldsRead fields room state entries final)
    (enough : entries.length < count) (rest : List Char) :
    Reads (fieldMembers fields room false state count)
      (following (fieldText inner) entries ++ outer) final ('\x7d' :: rest) := by
  induction read generalizing count with
  | done state =>
      cases count with
      | zero => cases enough
      | succ count => exact fields_end false state count outerGap rest
  | @field field state next final content later found unset reads further hypothesis =>
      cases count with
      | zero => cases enough
      | succ count =>
          have whole := field_reads false field innerGap found unset
            (reads _ (following_fields_delimited outerGap later rest))
            (hypothesis (Nat.lt_of_succ_lt_succ enough))
          have shape : following (fieldText inner) ((field.name, content) :: later) ++ outer =
              [','] ++ (inner ++ (stringText field.name ++ ([':'] ++
                (content ++ (following (fieldText inner) later ++ outer))))) := by
            simp [following, fieldText]
          rw [shape]
          exact whole

/-- A record is read from the object of its fields, each behind a gap. -/
theorem record_reads (expected : String) {initial : State} (finish : State → Except Cause Result)
    {result : Result} {inner outer : List Char} (innerGap : Gap inner) (outerGap : Gap outer)
    {entries : List (String × List Char)} (read : FieldsRead fields room initial entries final)
    (finished : finish final = .ok result) (rest : List Char) :
    Reads (record expected fields initial finish (room + 1))
      ('\x7b' :: (separated (fieldText inner) entries ++ outer ++ ['\x7d'])) result rest := by
  have members : Reads (bounded (fieldMembers fields room true initial))
      (separated (fieldText inner) entries ++ outer) final ('\x7d' :: rest) := by
    apply Reads.bounded
    intro count more
    cases count with
    | zero => cases more
    | succ count =>
        cases read with
        | done => exact fields_end true _ count outerGap rest
        | @field field _ next _ content later found unset reads further =>
            have enough : later.length < count := by
              have bound := following_length (fieldText inner) later
              simp only [separated, fieldText, List.length_append, List.length_cons] at more
              omega
            have whole := field_reads true field innerGap found unset
              (reads _ (following_fields_delimited outerGap later rest))
              (fields_read innerGap outerGap further enough rest)
            have shape : separated (fieldText inner) ((field.name, content) :: later) ++ outer =
                inner ++ (stringText field.name ++ ([':'] ++
                  (content ++ (following (fieldText inner) later ++ outer)))) := by
              simp [separated, fieldText]
            rw [shape]
            exact whole
  apply Reads.located
  apply Reads.token_at rfl rfl
  apply Reads.discard
  apply Reads.closed_by
  · apply members.last
    simp only [finished]
    exact Reads.pure result _
  · exact fun position => ⟨_, rfl⟩

end Records

end Decoder

end UnitState.Json
