import UnitState.Json.Parser

/-!
# What a reader reads

A reader reads a text in front of a rest if it takes just the text, wherever it stands, and
gives the result. Readers in a row read texts in a row. From this it is shown here for names,
integers and strings that the text written for one is read as just that.
-/

set_option autoImplicit false

namespace UnitState.Json

open UnitState.Decimal

/-- In front of the rest, the reader takes the text and gives the result. -/
def Reads {Result : Type} (reader : Reader Result) (text : List Char) (result : Result)
    (rest : List Char) : Prop :=
  ∀ position, ∃ later, reader ⟨text ++ rest, position⟩ = (.ok result, ⟨rest, later⟩)

/-- What can stand behind a value inside a document, or the end of the document. -/
def Delimited (rest : List Char) : Prop :=
  rest = [] ∨ ∃ head tail, rest = head :: tail ∧
    (head = ',' ∨ head = ']' ∨ head = '\x7d' ∨ head = '\n')

theorem Delimited.no_digit {rest : List Char} (delimited : Delimited rest) :
    rest.head?.bind digitValue? = none := by
  rcases delimited with rfl | ⟨head, tail, rfl, rfl | rfl | rfl | rfl⟩ <;> rfl

def Blank (text : List Char) : Prop := ∀ character ∈ text, isSpace character = true

def Gap (text : List Char) : Prop := text = [] ∨ ∃ tail, text = '\n' :: tail ∧ Blank tail

theorem Gap.none : Gap [] := .inl rfl

theorem Gap.blank {text : List Char} (gap : Gap text) : Blank text := by
  intro character member
  rcases gap with rfl | ⟨tail, rfl, blank⟩
  · cases member
  · rcases List.mem_cons.1 member with rfl | later
    · rfl
    · exact blank character later

theorem Gap.delimited {text rest : List Char} (gap : Gap text) (delimited : Delimited rest) :
    Delimited (text ++ rest) := by
  rcases gap with rfl | ⟨tail, rfl, _⟩
  · exact delimited
  · exact .inr ⟨'\n', tail ++ rest, rfl, .inr (.inr (.inr rfl))⟩

theorem skip_none {rest : List Char}
    (noSpace : ∀ head, rest.head? = some head → isSpace head = false) (position : Position) :
    skipSpaces position rest = ⟨rest, position⟩ := by
  cases rest with
  | nil => rfl
  | cons head tail =>
      have apart := noSpace head rfl
      simp only [skipSpaces, apart, Bool.false_eq_true, if_false]

theorem skip_blank {blanks : List Char} (blank : Blank blanks) (rest : List Char)
    (position : Position) :
    ∃ later, skipSpaces position (blanks ++ rest) = skipSpaces later rest := by
  induction blanks generalizing position with
  | nil => exact ⟨position, rfl⟩
  | cons head tail hypothesis =>
      have space := blank head List.mem_cons_self
      obtain ⟨later, skipped⟩ :=
        hypothesis (fun other member => blank other (List.mem_cons_of_mem head member))
          (position.after head)
      refine ⟨later, ?_⟩
      simp only [List.cons_append, skipSpaces, space, if_true, skipped]

namespace Reads

variable {Result Other : Type} {text rest : List Char}

theorem pure (result : Result) (rest : List Char) :
    Reads (pure result) [] result rest := fun position => ⟨position, rfl⟩

theorem bind {first : Reader Result} {next : Result → Reader Other} {later : List Char}
    {result : Result} {other : Other} (reads : Reads first text result (later ++ rest))
    (goesOn : Reads (next result) later other rest) :
    Reads (first >>= next) (text ++ later) other rest := by
  intro position
  obtain ⟨middle, taken⟩ := reads position
  obtain ⟨last, left⟩ := goesOn middle
  refine ⟨last, ?_⟩
  rw [List.append_assoc, Attempt.bind_ok taken]
  exact left

theorem peek {next : Option Char → Reader Result} {result : Result}
    (goesOn : Reads (next (text ++ rest).head?) text result rest) :
    Reads (Reader.peek >>= next) text result rest := goesOn

theorem skip {blanks : List Char} (blank : Blank blanks) {next : Option Char → Reader Result}
    {result : Result}
    (noSpace : ∀ head, (text ++ rest).head? = some head → isSpace head = false)
    (goesOn : Reads (next (text ++ rest).head?) text result rest) :
    Reads (Reader.token >>= next) (blanks ++ text) result rest := by
  intro position
  obtain ⟨middle, skipped⟩ := skip_blank blank (text ++ rest) position
  rw [skip_none noSpace] at skipped
  obtain ⟨later, left⟩ := goesOn middle
  refine ⟨later, ?_⟩
  have looked : Reader.token ⟨blanks ++ text ++ rest, position⟩ =
      (.ok (text ++ rest).head?, ⟨text ++ rest, middle⟩) := by
    simp only [Reader.token, List.append_assoc, skipped]
  rw [Attempt.bind_ok looked]
  exact left

theorem skip_ahead {blanks : List Char} (blank : Blank blanks)
    {next : Option Char → Reader Result} {result : Result}
    (noSpace : ∀ head, rest.head? = some head → isSpace head = false)
    (goesOn : Reads (next rest.head?) [] result rest) :
    Reads (Reader.token >>= next) blanks result rest := by
  have skipped : Reads (Reader.token >>= next) (blanks ++ []) result rest :=
    skip blank noSpace goesOn
  rwa [List.append_nil] at skipped

theorem token {next : Option Char → Reader Result} {result : Result}
    (noSpace : ∀ head, (text ++ rest).head? = some head → isSpace head = false)
    (goesOn : Reads (next (text ++ rest).head?) text result rest) :
    Reads (Reader.token >>= next) text result rest :=
  @skip _ text rest [] nofun next result noSpace goesOn

/-- A text that begins with anything but a blank is read by what its first character decides on. -/
theorem token_at {next : Option Char → Reader Result} {head : Char} {tail : List Char}
    {result : Result} (starts : text = head :: tail) (noSpace : isSpace head = false)
    (goesOn : Reads (next (some head)) text result rest) :
    Reads (Reader.token >>= next) text result rest := by
  subst starts
  apply token
  · intro other same
    cases same
    exact noSpace
  · exact goesOn

theorem discard {next : Unit → Reader Result} {head : Char} {result : Result}
    (goesOn : Reads (next ()) text result rest) :
    Reads (Reader.discard >>= next) (head :: text) result rest :=
  fun position => goesOn (position.after head)

theorem closed_by {inside : Reader Result} {closing : Reader Unit} {result : Result}
    {ending : List Char} (reads : Reads inside text result (ending ++ rest))
    (closes : Reads closing ending () rest) :
    Reads (Reader.closedBy inside closing) (text ++ ending) result rest := by
  intro position
  obtain ⟨middle, taken⟩ := reads position
  obtain ⟨last, left⟩ := closes middle
  refine ⟨last, ?_⟩
  rw [List.append_assoc, Reader.closedBy]
  simp only [taken, left]

theorem located {reader : Reader Result} {result : Result}
    (reads : Reads reader text result rest) : Reads (Reader.located reader) text result rest := by
  intro position
  obtain ⟨later, taken⟩ := reads position
  refine ⟨later, ?_⟩
  rw [Reader.located]
  simp only [taken]

theorem bounded {reader : Nat → Reader Result} {result : Result}
    (reads : ∀ count, text.length < count → Reads (reader count) text result rest) :
    Reads (Reader.bounded reader) text result rest := by
  intro position
  apply reads
  simp only [List.length_append]
  omega

theorem last {first : Reader Result} {next : Result → Reader Other} {result : Result}
    {other : Other} (reads : Reads first text result rest)
    (goesOn : Reads (next result) [] other rest) : Reads (first >>= next) text other rest := by
  have whole := reads.bind goesOn
  rwa [List.append_nil] at whole

theorem map {reader : Reader Result} {result : Result} (change : Result → Other)
    (reads : Reads reader text result rest) :
    Reads (reader >>= fun result => Pure.pure (change result)) text (change result) rest :=
  reads.last (Reads.pure (change result) rest)

end Reads

/-! ## Rows of results -/

def following {Source : Type} (text : Source → List Char) (sources : List Source) : List Char :=
  sources.flatMap fun source => ',' :: text source

def separated {Source : Type} (text : Source → List Char) : List Source → List Char
  | [] => []
  | head :: tail => text head ++ following text tail

theorem separated_map {Source Other : Type} (text : Other → List Char) (change : Source → Other)
    (sources : List Source) :
    separated text (sources.map change) =
      separated (fun source => text (change source)) sources := by
  cases sources with
  | nil => rfl
  | cons head tail => simp only [List.map_cons, separated, following, List.flatMap_map]

theorem following_length {Source : Type} (text : Source → List Char) (sources : List Source) :
    sources.length ≤ (following text sources).length := by
  induction sources with
  | nil => exact Nat.le_refl 0
  | cons head tail hypothesis =>
      simp only [following, List.flatMap_cons, List.length_append, List.length_cons] at *
      omega

/-- A count that is spent on the texts of sources one by one, up to a gap and a closing character.
What is given says whether the next source is the first one, in front of which there is no
comma. -/
structure Loops {Source Result : Type} (loop : Bool → Nat → Reader (List Result))
    (text : Source → List Char) (read : Source → Result) (gap : List Char) (closing : Char)
    (sources : List Source) : Prop where
  nonempty : ∀ source ∈ sources, text source ≠ []
  stops : ∀ first count rest, Reads (loop first (count + 1)) gap [] (closing :: rest)
  goes_on : ∀ first count, ∀ head ∈ sources, ∀ tail later rest, Delimited (later ++ rest) →
    Reads (loop false count) later tail rest →
      Reads (loop first (count + 1)) ((if first then [] else [',']) ++ (text head ++ later))
        (read head :: tail) rest

namespace Loops

variable {Source Result : Type} {loop : Bool → Nat → Reader (List Result)}
  {text : Source → List Char} {read : Source → Result} {gap : List Char} {closing : Char}
  {sources : List Source}

theorem tail {head : Source} (loops : Loops loop text read gap closing (head :: sources)) :
    Loops loop text read gap closing sources where
  nonempty other member := loops.nonempty other (List.mem_cons_of_mem head member)
  stops := loops.stops
  goes_on first count other member :=
    loops.goes_on first count other (List.mem_cons_of_mem head member)

theorem following_delimited (gapped : Gap gap) (closes : Delimited [closing]) (rest : List Char) :
    Delimited (following text sources ++ gap ++ closing :: rest) := by
  cases sources with
  | nil =>
      apply gapped.delimited
      rcases closes with none | ⟨head, tail, shape, kind⟩
      · cases none
      · cases shape
        exact .inr ⟨closing, rest, rfl, kind⟩
  | cons head tail => exact .inr ⟨',', _, rfl, .inl rfl⟩

theorem following_read (loops : Loops loop text read gap closing sources) (gapped : Gap gap)
    (closes : Delimited [closing]) {count : Nat} (enough : sources.length < count)
    (rest : List Char) :
    Reads (loop false count) (following text sources ++ gap) (sources.map read)
      (closing :: rest) := by
  induction sources generalizing count with
  | nil =>
      cases count with
      | zero => cases enough
      | succ count => exact loops.stops false count rest
  | cons head tail hypothesis =>
      cases count with
      | zero => cases enough
      | succ count =>
          have later := hypothesis loops.tail (Nat.lt_of_succ_lt_succ enough)
          have whole := loops.goes_on false count head List.mem_cons_self _ _ _
            (following_delimited gapped closes rest) later
          have shape : following text (head :: tail) ++ gap =
              [','] ++ (text head ++ (following text tail ++ gap)) := by
            simp [following]
          rw [shape]
          exact whole

/-- A loop with a count that no text exceeds reads the texts of all sources. -/
theorem separated_read (loops : Loops loop text read gap closing sources) (gapped : Gap gap)
    (closes : Delimited [closing]) (rest : List Char) :
    Reads (Reader.bounded (loop true)) (separated text sources ++ gap) (sources.map read)
      (closing :: rest) := by
  apply Reads.bounded
  intro count more
  cases count with
  | zero => cases more
  | succ count =>
      cases sources with
      | nil => exact loops.stops true count rest
      | cons head tail =>
          have enough : tail.length < count := by
            have bound := following_length text tail
            have first := List.length_pos_iff.2 (loops.nonempty head List.mem_cons_self)
            simp only [separated, List.length_append] at more
            omega
          have whole := loops.goes_on true count head List.mem_cons_self _ _ _
            (following_delimited gapped closes rest)
            (loops.tail.following_read gapped closes enough rest)
          rw [separated, List.append_assoc]
          exact whole

end Loops

namespace Reader

/-! ## Names -/

theorem name_reads (characters rest : List Char) : Reads (name characters) characters () rest := by
  induction characters with
  | nil => exact Reads.pure () rest
  | cons expected others hypothesis =>
      apply Reads.peek
      simp only [List.cons_append, List.head?_cons, if_true]
      exact Reads.discard hypothesis

/-! ## Integers -/

theorem is_digit_eq (character : Char) : isDigit character = character.isDigit := by
  rw [Bool.eq_iff_iff]
  simp [isDigit, digitValue?, Char.isDigit, Char.le_def]

theorem digits_of_digits (number : Nat) :
    ∀ character ∈ digitsOf number, isDigit character = true := by
  intro character member
  rw [is_digit_eq]
  exact Nat.isDigit_of_mem_toDigits (by decide) (by decide) member

theorem digits_of_head {number : Nat} (positive : 0 < number) :
    ∃ head tail, digitsOf number = head :: tail ∧ head ≠ '0' := by
  induction number using Nat.strongRecOn with
  | ind number hypothesis =>
      rw [digitsOf, Nat.toDigits_eq_if (by decide)]
      split
      · refine ⟨_, [], rfl, fun zero => ?_⟩
        have none := Nat.digitChar_eq_zero.1 zero
        omega
      · obtain ⟨head, tail, shape, lead⟩ := hypothesis (number / 10) (by omega) (by omega)
        rw [digitsOf] at shape
        rw [shape]
        exact ⟨head, _, rfl, lead⟩

theorem extend_significand_eq (characters : List Char) (start : Nat)
    (fits : Nat.ofDigitChars 10 characters start ≤ greatestSignificand) :
    extendSignificand start characters = (Nat.ofDigitChars 10 characters start, 0) := by
  induction characters generalizing start with
  | nil => rfl
  | cons head tail hypothesis =>
      rw [Nat.ofDigitChars_cons] at fits ⊢
      have extended : 10 * start + (head.toNat - '0'.toNat) ≤ greatestSignificand := by
        have whole := @Nat.ofDigitChars_eq_ofDigitChars_zero tail
          (10 * start + (head.toNat - '0'.toNat))
        have scale : 1 ≤ 10 ^ tail.length := Nat.one_le_pow _ _ (by decide)
        have grows := Nat.mul_le_mul_right (10 * start + (head.toNat - '0'.toNat)) scale
        omega
      rw [extendSignificand, if_neg (by omega)]
      exact hypothesis _ fits

theorem advance_by_length (text rest : List Char) (position : Position) :
    ∃ later, Cursor.advanceBy ⟨text ++ rest, position⟩ text.length = ⟨rest, later⟩ := by
  induction text generalizing position with
  | nil => exact ⟨position, rfl⟩
  | cons head tail hypothesis => exact hypothesis (position.after head)

theorem digits_read {text rest : List Char} (digital : ∀ character ∈ text, isDigit character)
    (ends : rest.head?.bind digitValue? = none) : Reads digits text text rest := by
  have run : (text ++ rest).takeWhile isDigit = text := by
    rw [List.takeWhile_append_of_pos digital]
    cases rest with
    | nil => simp
    | cons head tail =>
        have apart : isDigit head = false := by
          simpa [isDigit] using ends
        simp [apart]
  intro position
  obtain ⟨later, left⟩ := advance_by_length text rest position
  refine ⟨later, ?_⟩
  simp only [digits, run, left]

theorem number_tail_reads {negative : Bool} {significand : Nat} {value : Int}
    (inRange : InIntegerRange value)
    (signed : value = if negative then -(significand : Int) else significand)
    (nonzero : negative = true → significand ≠ 0) {rest : List Char}
    (delimited : Delimited rest) :
    Reads (numberTail negative significand 0) [] (.integer value inRange) rest := by
  have whole : ¬((0 : Nat) ≠ 0 ∨ (negative = true ∧ significand = 0)) := by
    rintro (zero | ⟨isNegative, zero⟩)
    · exact zero rfl
    · exact nonzero isNegative zero
  have found : Number.ofInt? (if negative then -(significand : Int) else significand) =
      some (.integer value inRange) := by
    rw [← signed]
    exact dif_pos inRange
  apply Reads.peek
  rcases delimited with rfl | ⟨head, tail, rfl, rfl | rfl | rfl | rfl⟩
  all_goals
    simp only [List.nil_append, List.head?_nil, List.head?_cons]
    rw [if_neg whole, found]
    exact Reads.pure _ _

theorem unsigned_number_reads {negative : Bool} {significand : Nat} {value : Int}
    (inRange : InIntegerRange value)
    (signed : value = if negative then -(significand : Int) else significand)
    (nonzero : negative = true → significand ≠ 0) {rest : List Char}
    (delimited : Delimited rest) :
    Reads (unsignedNumber negative) (digitsOf significand) (.integer value inRange) rest := by
  have tail := number_tail_reads inRange signed nonzero delimited
  rcases Nat.eq_zero_or_pos significand with rfl | positive
  · apply Reads.peek
    apply Reads.discard
    apply Reads.peek
    rw [List.nil_append, delimited.no_digit]
    exact tail
  · obtain ⟨head, later, shape, lead⟩ := digits_of_head positive
    have digital := digits_of_digits significand
    have fits : significand ≤ greatestSignificand := by
      have bounds := inRange
      unfold InIntegerRange at bounds
      rw [signed] at bounds
      simp only [greatestSignificand]
      split at bounds <;> omega
    have kept : extendSignificand 0 (digitsOf significand) = (significand, 0) := by
      have value : Nat.ofDigitChars 10 (digitsOf significand) 0 = significand :=
        Nat.ofDigitChars_ten_toDigits
      rw [extend_significand_eq _ _ (by rw [value]; exact fits), value]
    have leading : isDigit head = true := digital head (by rw [shape]; exact List.mem_cons_self)
    apply Reads.peek
    simp only [shape, List.cons_append, List.head?_cons, if_neg lead, leading, if_true]
    rw [← shape]
    apply Reads.last (digits_read digital delimited.no_digit)
    simp only [kept]
    exact tail

theorem integer_reads {value : Int} (inRange : InIntegerRange value) {rest : List Char}
    (delimited : Delimited rest) :
    Reads number (integerText value) (.integer value inRange) rest := by
  unfold integerText
  split
  · apply Reads.peek
    apply Reads.discard
    apply unsigned_number_reads inRange _ _ delimited
    · rw [if_pos rfl]
      omega
    · intro _
      omega
  · have unsigned : Reads (unsignedNumber false) (digitsOf value.natAbs)
        (.integer value inRange) rest := by
      apply unsigned_number_reads inRange _ _ delimited
      · rw [if_neg Bool.false_ne_true]
        omega
      · intro negative
        cases negative
    apply Reads.peek
    cases shape : digitsOf value.natAbs with
    | nil => exact absurd shape (by simp [digitsOf])
    | cons head tail =>
        have digital := digits_of_digits value.natAbs head (by rw [shape]; exact List.mem_cons_self)
        rw [shape] at unsigned
        split
        · rename_i minus
          cases minus
          cases digital
        · exact unsigned

/-! ## Strings -/

theorem hex_word_reads {text : List Char} {word : Nat} (four : text.length = 4)
    (found : hexWord? text = some word) (rest : List Char) : Reads hexWord text word rest := by
  match text, four with
  | [first, second, third, fourth], _ =>
      have ahead : hexWord? ([first, second, third, fourth] ++ rest) = some word := found
      intro position
      obtain ⟨later, left⟩ := advance_by_length [first, second, third, fourth] rest position
      refine ⟨later, ?_⟩
      simp only [hexWord, ahead]
      rw [← left]
      rfl

/-- Every character stands for itself, or for itself behind a backslash. -/
theorem escaped_cases (character : Char) :
    (escapedCharacter character = [character] ∧ character ≠ '"' ∧ character ≠ '\\' ∧
      ¬character.toNat < 0x20) ∨
    ∃ text, escapedCharacter character = '\\' :: text ∧
      ∀ rest, Reads escape text character rest := by
  unfold escapedCharacter
  split
  case h_8 quotation backslash _ _ _ _ _ =>
    split
    · rename_i control
      right
      -- of the control characters, only the thirty-two that can occur have to be looked at
      have checked : ∀ word : Fin 32,
          let digits := Text.hexDigits word
          let text := List.replicate (4 - digits.length) '0' ++ digits
          text.length = 4 ∧ hexWord? text = some word.val := by
        decide
      obtain ⟨four, found⟩ := checked ⟨character.toNat, control⟩
      refine ⟨_, rfl, fun rest => ?_⟩
      apply Reads.peek
      apply Reads.discard
      apply Reads.last (hex_word_reads four found rest)
      have notTrailing : isTrailingSurrogate character.toNat = false := by
        simp only [isTrailingSurrogate, Bool.and_eq_false_iff, decide_eq_false_iff_not]
        omega
      have notLeading : isLeadingSurrogate character.toNat = false := by
        simp only [isLeadingSurrogate, Bool.and_eq_false_iff, decide_eq_false_iff_not]
        omega
      simp only [notTrailing, notLeading, Bool.false_eq_true, if_false, Char.ofNat_toNat]
      exact Reads.pure character rest
    · rename_i visible
      exact .inl ⟨rfl, quotation, backslash, visible⟩
  all_goals exact .inr ⟨_, rfl, fun rest position => ⟨_, rfl⟩⟩

theorem escaped_length (characters : List Char) :
    characters.length ≤ (characters.flatMap escapedCharacter).length := by
  induction characters with
  | nil => exact Nat.le_refl 0
  | cons head tail hypothesis =>
      have nonempty : 1 ≤ (escapedCharacter head).length := by
        rcases escaped_cases head with ⟨plain, _⟩ | ⟨text, escaped, _⟩
        · rw [plain]
          exact Nat.le_refl 1
        · rw [escaped]
          exact Nat.le_add_left 1 text.length
      simp only [List.flatMap_cons, List.length_append, List.length_cons]
      omega

theorem string_chars_read (characters : List Char) {count : Nat}
    (enough : characters.length < count) (rest : List Char) :
    Reads (stringChars count) (characters.flatMap escapedCharacter ++ ['"']) characters rest := by
  induction characters generalizing count with
  | nil =>
      cases count with
      | zero => cases enough
      | succ count => exact fun position => ⟨_, rfl⟩
  | cons head tail hypothesis =>
      cases count with
      | zero => cases enough
      | succ count =>
          have later := hypothesis (Nat.lt_of_succ_lt_succ enough)
          rw [List.flatMap_cons, List.append_assoc]
          apply Reads.peek
          rcases escaped_cases head with
            ⟨plain, quotation, backslash, visible⟩ | ⟨text, escaped, reads⟩
          · simp only [plain, List.cons_append, List.nil_append, List.head?_cons]
            apply Reads.discard
            rw [if_neg quotation, if_neg backslash, if_neg visible]
            exact later.map _
          · simp only [escaped, List.cons_append, List.head?_cons]
            apply Reads.discard
            rw [if_neg (by decide), if_pos trivial]
            exact (reads _).bind (later.map _)

theorem string_reads (text : String) (rest : List Char) :
    Reads string (stringText text) text rest := by
  have enough : text.toList.length <
      (stringText text ++ rest).length + 1 := by
    have long := escaped_length text.toList
    simp only [stringText, List.length_append, List.length_cons]
    omega
  have characters := (string_chars_read text.toList enough rest).map String.ofList
  rw [String.ofList_toList] at characters
  intro position
  exact Reads.discard characters position

end Reader

end UnitState.Json
