import Mocop.Lib.Text

/-!
# `Mocop.Topology.ProxyCommands`: the destinations of a proxy command

`sshProxyOptions` reads the words behind `ssh`: options on both sides of the destination, up to
the remote command. `CommandLine` is the grammar of these words, and `sshProxyOptions_eq_some_iff`
says that the reader accepts the lines of the grammar and no others, with their destination and
their options. In the grammar a value of an option is never a destination, and the remote command
is any list of words.
-/

set_option autoImplicit false

namespace Mocop

/-! ### The words behind `ssh` -/

/-- The options with a value. -/
def valueOptions : List Char := "BbcDEeFIiJLlmOoPpQRSWw".toList

/-- The options without one. -/
def plainOptions : List Char := "1246AaCfGgKkMNnqsTtVvXxYy".toList

/-- What the letters of a word end with. -/
inductive Letters where
  | plain
  | attached (option : Char) (argument : List Char)
  | awaiting (option : Char)

/-- Reads the letters of a word, up to an option with a value. -/
def readLetters : List Char → Option Letters
  | [] => some .plain
  | option :: letters =>
    if option ∈ valueOptions then
      match letters with
      | [] => some (.awaiting option)
      | _ :: _ => some (.attached option letters)
    else if option ∈ plainOptions then readLetters letters
    else none

/-- The options that are kept: jumps and settings. -/
def keptOption (option : Char) (argument : String) : List (Char × String) :=
  if option ∈ ['J', 'o'] then [(option, argument)] else []

/-- Whether a word is no option. -/
def isPlainWord (word : String) : Bool := word.toList.head? ≠ some '-' || word = "-"

/-- Reads the words behind `ssh`, with the destination and the options so far. -/
def readProxyOptions (destination : Option String) (options : List (Char × String)) :
    List String → Option (String × List (Char × String))
  | [] => destination.map (·, options)
  | token :: rest =>
    if token = "--" then (destination.or rest.head?).map (·, options)
    else if isPlainWord token then
      match destination with
      -- The first word of the remote command.
      | some destination => some (destination, options)
      | none => readProxyOptions (some token) options rest
    else
      match readLetters (token.toList.drop 1) with
      | none => none
      | some .plain => readProxyOptions destination options rest
      | some (.attached option argument) =>
        readProxyOptions destination (options ++ keptOption option (String.ofList argument)) rest
      | some (.awaiting option) =>
        match rest with
        | [] => none
        | argument :: rest =>
          readProxyOptions destination (options ++ keptOption option argument) rest

/-- The destination and the options of the words behind `ssh`. -/
def sshProxyOptions (arguments : List String) : Option (String × List (Char × String)) :=
  readProxyOptions none [] arguments

/-! ### Jumps -/

/-- The name and the value of a setting. -/
def readSetting (argument : String) : Option (String × String) :=
  let text := (pyStrip argument).toList
  let isName := fun c => !isPySpace c && c ≠ '='
  let name := text.takeWhile isName
  let rest := text.dropWhile isName
  let spaced := rest.dropWhile isPySpace
  let value := match spaced with
    | '=' :: value =>
      -- A last sign behind blanks is the value itself.
      if value.isEmpty && rest ≠ spaced then spaced else value.dropWhile isPySpace
    | _ => spaced
  if name.isEmpty || value.isEmpty || '\n' ∈ value then none
  else some (String.ofList name, String.ofList value)

/-- The first value of a jump, and whether a command comes before it. -/
structure JumpSettings where
  jump : Option String := none
  proxyCommand : Bool := false

/-- Takes in one option. A jump behind another setting is refused. -/
def addJumpOption (lower : String → String) (settings : JumpSettings)
    (option : Char × String) : Option JumpSettings :=
  if option.1 = 'J' then
    if settings.jump.isSome || settings.proxyCommand then none
    else some { settings with jump := some (pyStrip option.2) }
  else
    match readSetting option.2 with
    | none => some settings
    | some (name, value) =>
      if settings.jump.isSome || settings.proxyCommand then some settings
      else if lower name = "proxycommand" then some { settings with proxyCommand := true }
      else if lower name = "proxyjump" then some { settings with jump := some value }
      else some settings

/-- The jumps of the options, unless the client refuses them. -/
def sshProxyJumps (lower : String → String) (options : List (Char × String)) :
    Option (List String) := do
  let settings ← options.foldlM (addJumpOption lower) {}
  return match settings.jump with
    | none => []
    | some jump => if ["", "none"].contains (lower jump) then [] else splitAt ',' jump

/-- The destinations of a proxy command: its jumps and the host behind them. -/
def proxyCommandDestinations (lower : String → String) (tokens : List String) : List String :=
  let tokens := match tokens with
    | "exec" :: rest => rest
    | _ => tokens
  match tokens with
  | [] => []
  | command :: arguments =>
    if (splitAt '/' command).getLast? ≠ some "ssh" then []
    else
      match sshProxyOptions arguments with
      | none => []
      | some (destination, options) =>
        match sshProxyJumps lower options with
        | none => []
        | some jumps => jumps ++ [destination]

/-! ### The grammar -/

/-- A word of options. -/
inductive OptionWord where
  | plain (first : {c // c ∈ plainOptions}) (letters : List {c // c ∈ plainOptions})
  | attached (letters : List {c // c ∈ plainOptions}) (option : {c // c ∈ valueOptions})
      (first : Char) (argument : List Char)
  | detached (letters : List {c // c ∈ plainOptions}) (option : {c // c ∈ valueOptions})
      (argument : String)

namespace OptionWord

/-- The letters of options without a value. -/
def spell (letters : List {c // c ∈ plainOptions}) : List Char := letters.map (·.val)

/-- The words of a word of options and of its value. -/
def words : OptionWord → List String
  | plain first letters => [String.ofList ('-' :: spell (first :: letters))]
  | attached letters option first argument =>
    [String.ofList ('-' :: (spell letters ++ option.val :: first :: argument))]
  | detached letters option argument =>
    [String.ofList ('-' :: (spell letters ++ [option.val])), argument]

/-- The option that is kept. -/
def kept : OptionWord → List (Char × String)
  | plain _ _ => []
  | attached _ option first argument => keptOption option.val (String.ofList (first :: argument))
  | detached _ option argument => keptOption option.val argument

end OptionWord

/-- What follows the options behind a destination. -/
inductive Remainder where
  | nothing
  | command (first : {word // isPlainWord word = true}) (rest : List String)
  | dashes (rest : List String)

/-- The words of a remainder. -/
def Remainder.words : Remainder → List String
  | nothing => []
  | command first rest => first.val :: rest
  | dashes rest => "--" :: rest

/-- The words behind `ssh`. -/
inductive CommandLine where
  | plain (before : List OptionWord) (destination : {word // isPlainWord word = true})
      (after : List OptionWord) (remainder : Remainder)
  | dashed (before : List OptionWord) (destination : String) (rest : List String)

namespace CommandLine

/-- The words of a line. -/
def words : CommandLine → List String
  | plain before destination after remainder =>
    before.flatMap OptionWord.words ++ destination.val :: (after.flatMap OptionWord.words
      ++ remainder.words)
  | dashed before destination rest =>
    before.flatMap OptionWord.words ++ "--" :: destination :: rest

/-- The destination of a line. -/
def destination : CommandLine → String
  | plain _ destination _ _ => destination.val
  | dashed _ destination _ => destination

/-- The kept options of a line. -/
def options : CommandLine → List (Char × String)
  | plain before _ after _ => before.flatMap OptionWord.kept ++ after.flatMap OptionWord.kept
  | dashed before _ _ => before.flatMap OptionWord.kept

end CommandLine

/-! ### Letters -/

/-- No option is of both kinds. -/
theorem not_mem_valueOptions {c : Char} (h : c ∈ plainOptions) : c ∉ valueOptions := by
  have hall : plainOptions.all (fun c => decide (c ∉ valueOptions)) = true := by decide +kernel
  exact of_decide_eq_true (List.all_eq_true.mp hall c h)

/-- A dash is no option. -/
theorem ne_dash {c : Char} (h : c ∈ plainOptions ∨ c ∈ valueOptions) : c ≠ '-' := by
  rintro rfl
  revert h
  decide

variable {option : Char} {result : String × List (Char × String)}

theorem readLetters_plain (h : option ∈ plainOptions) (letters : List Char) :
    readLetters (option :: letters) = readLetters letters := by
  rw [readLetters.eq_def]
  dsimp only
  rw [if_neg (not_mem_valueOptions h), if_pos h]

theorem readLetters_value (h : option ∈ valueOptions) (letters : List Char) :
    readLetters (option :: letters)
      = some (if letters = [] then .awaiting option else .attached option letters) := by
  rw [readLetters.eq_def]
  dsimp only
  rw [if_pos h]
  cases letters <;> rfl

/-- The options without a value are passed over. -/
theorem readLetters_spell (letters : List {c // c ∈ plainOptions}) (rest : List Char) :
    readLetters (OptionWord.spell letters ++ rest) = readLetters rest := by
  induction letters with
  | nil => rfl
  | cons option letters ih => exact (readLetters_plain option.property _).trans ih

/-- What the letters of a word with this outcome are. -/
def Letters.Spelled (letters : List Char) : Letters → Prop
  | .plain => ∃ plain, letters = OptionWord.spell plain
  | .attached option argument => option ∈ valueOptions ∧ argument ≠ []
    ∧ ∃ plain, letters = OptionWord.spell plain ++ option :: argument
  | .awaiting option => option ∈ valueOptions
    ∧ ∃ plain, letters = OptionWord.spell plain ++ [option]

/-- One more option without a value. -/
theorem Letters.Spelled.cons (h : option ∈ plainOptions) {letters : List Char} {found : Letters}
    (hfound : found.Spelled letters) : found.Spelled (option :: letters) := by
  cases found with
  | plain =>
    obtain ⟨plain, rfl⟩ := hfound
    exact ⟨⟨option, h⟩ :: plain, rfl⟩
  | attached other argument =>
    obtain ⟨hvalue, hne, plain, rfl⟩ := hfound
    exact ⟨hvalue, hne, ⟨option, h⟩ :: plain, rfl⟩
  | awaiting other =>
    obtain ⟨hvalue, plain, rfl⟩ := hfound
    exact ⟨hvalue, ⟨option, h⟩ :: plain, rfl⟩

/-- The letters that are read: options without a value in front of the last one. -/
theorem spelled_of_readLetters {letters : List Char} {found : Letters}
    (h : readLetters letters = some found) : found.Spelled letters := by
  induction letters with
  | nil =>
    obtain rfl := Option.some.inj h
    exact ⟨[], rfl⟩
  | cons option letters ih =>
    by_cases hvalue : option ∈ valueOptions
    · rw [readLetters_value hvalue] at h
      obtain rfl := Option.some.inj h
      split
      · next hnil =>
        rw [hnil]
        exact ⟨hvalue, [], rfl⟩
      · next hne => exact ⟨hvalue, hne, [], rfl⟩
    · by_cases hplain : option ∈ plainOptions
      · rw [readLetters_plain hplain] at h
        exact (ih h).cons hplain
      · rw [readLetters.eq_def] at h
        dsimp only at h
        rw [if_neg hvalue, if_neg hplain] at h
        cases h

/-! ### Words of options -/

/-- A plain word is not the end of the options. -/
theorem ne_dashes {word : String} (h : isPlainWord word = true) : word ≠ "--" := by
  rintro rfl
  revert h
  decide

/-- What starts with a dash and an option is read by its letters. -/
theorem readProxyOptions_letters (h : option ∈ plainOptions ∨ option ∈ valueOptions)
    (letters : List Char) (destination : Option String) (options : List (Char × String))
    (rest : List String) :
    readProxyOptions destination options (String.ofList ('-' :: option :: letters) :: rest)
      = match readLetters (option :: letters) with
        | none => none
        | some .plain => readProxyOptions destination options rest
        | some (.attached option argument) =>
          readProxyOptions destination (options ++ keptOption option (String.ofList argument)) rest
        | some (.awaiting option) =>
          match rest with
          | [] => none
          | argument :: rest =>
            readProxyOptions destination (options ++ keptOption option argument) rest := by
  have hend : String.ofList ('-' :: option :: letters) ≠ "--" := by
    intro heq
    have hchars := congrArg String.toList heq
    rw [String.toList_ofList] at hchars
    injection hchars with _ hrest
    injection hrest with hdash _
    exact ne_dash h hdash
  have hlong : String.ofList ('-' :: option :: letters) ≠ "-" := by
    intro heq
    have hchars := congrArg String.toList heq
    rw [String.toList_ofList] at hchars
    injection hchars with _ hrest
    cases hrest
  have hword : isPlainWord (String.ofList ('-' :: option :: letters)) = false := by
    rw [isPlainWord, String.toList_ofList, decide_eq_false hlong]
    rfl
  rw [readProxyOptions.eq_def]
  dsimp only
  rw [if_neg hend, hword, if_neg Bool.false_ne_true, String.toList_ofList]
  rfl

/-- What the letters of a word with an option in front are. -/
theorem exists_cons_spell (letters : List {c // c ∈ plainOptions}) (h : option ∈ valueOptions)
    (argument : List Char) :
    ∃ first rest, OptionWord.spell letters ++ option :: argument = first :: rest
      ∧ (first ∈ plainOptions ∨ first ∈ valueOptions) := by
  cases letters with
  | nil => exact ⟨option, argument, rfl, .inr h⟩
  | cons first letters =>
    exact ⟨first.val, OptionWord.spell letters ++ option :: argument, rfl, .inl first.property⟩

/-- A word of options is read with the option that it keeps. -/
theorem readProxyOptions_words (word : OptionWord) (destination : Option String)
    (options : List (Char × String)) (rest : List String) :
    readProxyOptions destination options (word.words ++ rest)
      = readProxyOptions destination (options ++ word.kept) rest := by
  cases word with
  | plain first letters =>
    have hfound : readLetters (first.val :: OptionWord.spell letters) = some .plain := by
      have h := readLetters_spell (first :: letters) []
      rwa [List.append_nil] at h
    show readProxyOptions destination options
      (String.ofList ('-' :: first.val :: OptionWord.spell letters) :: rest) = _
    rw [readProxyOptions_letters (.inl first.property), hfound, OptionWord.kept,
      List.append_nil]
  | attached letters option first argument =>
    have hfound := readLetters_spell letters (option.val :: first :: argument)
    rw [readLetters_value option.property, if_neg (List.cons_ne_nil _ _)] at hfound
    obtain ⟨head, tail, hspelled, hhead⟩ :=
      exists_cons_spell letters option.property (first :: argument)
    show readProxyOptions destination options (String.ofList
      ('-' :: (OptionWord.spell letters ++ option.val :: first :: argument)) :: rest) = _
    rw [hspelled] at hfound ⊢
    rw [readProxyOptions_letters hhead, hfound]
    rfl
  | detached letters option argument =>
    have hfound := readLetters_spell letters [option.val]
    rw [readLetters_value option.property, if_pos rfl] at hfound
    obtain ⟨head, tail, hspelled, hhead⟩ := exists_cons_spell letters option.property []
    show readProxyOptions destination options (String.ofList
      ('-' :: (OptionWord.spell letters ++ [option.val])) :: argument :: rest) = _
    rw [hspelled] at hfound ⊢
    rw [readProxyOptions_letters hhead, hfound]
    rfl

/-- So are several ones. -/
theorem readProxyOptions_flatMap (words : List OptionWord) (destination : Option String)
    (options : List (Char × String)) (rest : List String) :
    readProxyOptions destination options (words.flatMap OptionWord.words ++ rest)
      = readProxyOptions destination (options ++ words.flatMap OptionWord.kept) rest := by
  induction words generalizing options with
  | nil => rw [List.flatMap_nil, List.flatMap_nil, List.nil_append, List.append_nil]
  | cons word words ih =>
    rw [List.flatMap_cons, List.flatMap_cons, List.append_assoc, readProxyOptions_words, ih,
      List.append_assoc]

/-- What is read behind a dash is a word of options. -/
theorem exists_optionWord {token : String} {rest : List String} {destination : Option String}
    {options : List (Char × String)} (hend : token ≠ "--") (hword : isPlainWord token = false)
    (h : readProxyOptions destination options (token :: rest) = some result) :
    ∃ (word : OptionWord) (tail : List String), token :: rest = word.words ++ tail
      ∧ readProxyOptions destination (options ++ word.kept) tail = some result := by
  have hdash : token.toList.head? = some '-' ∧ token ≠ "-" := by
    rw [isPlainWord, Bool.or_eq_false_iff, decide_eq_false_iff_not, decide_eq_false_iff_not,
      not_ne_iff] at hword
    exact hword
  obtain ⟨letters, hletters⟩ := List.head?_eq_some_iff.mp hdash.1
  obtain rfl : token = String.ofList ('-' :: letters) := by
    rw [← hletters, String.ofList_toList]
  have hne : letters ≠ [] := by
    rintro rfl
    exact hdash.2 rfl
  -- A word of the grammar is read as the reader reads it.
  suffices hspelled : ∃ (word : OptionWord) (tail : List String),
      String.ofList ('-' :: letters) :: rest = word.words ++ tail by
    obtain ⟨word, tail, heq⟩ := hspelled
    rw [heq, readProxyOptions_words] at h
    exact ⟨word, tail, heq, h⟩
  rw [readProxyOptions.eq_def] at h
  dsimp only at h
  rw [if_neg hend, hword, if_neg Bool.false_ne_true, String.toList_ofList, List.drop_one,
    List.tail_cons] at h
  cases hfound : readLetters letters with
  | none =>
    rw [hfound] at h
    cases h
  | some found =>
    have hspelled := spelled_of_readLetters hfound
    cases found with
    | plain =>
      obtain ⟨plain, rfl⟩ := hspelled
      cases plain with
      | nil => exact absurd rfl hne
      | cons first plain => exact ⟨.plain first plain, rest, rfl⟩
    | attached option argument =>
      obtain ⟨hvalue, hargument, plain, rfl⟩ := hspelled
      cases argument with
      | nil => exact absurd rfl hargument
      | cons first argument => exact ⟨.attached plain ⟨option, hvalue⟩ first argument, rest, rfl⟩
    | awaiting option =>
      obtain ⟨hvalue, plain, rfl⟩ := hspelled
      rw [hfound] at h
      cases rest with
      | nil => cases h
      | cons argument rest => exact ⟨.detached plain ⟨option, hvalue⟩ argument, rest, rfl⟩

theorem OptionWord.words_ne_nil (word : OptionWord) : word.words ≠ [] := by
  cases word <;> exact List.cons_ne_nil _ _

/-- What is read behind a destination. -/
theorem readProxyOptions_behind {arguments : List String} {destination : String}
    {options : List (Char × String)}
    (h : readProxyOptions (some destination) options arguments = some result) :
    ∃ (after : List OptionWord) (remainder : Remainder),
      after.flatMap OptionWord.words ++ remainder.words = arguments
      ∧ result = (destination, options ++ after.flatMap OptionWord.kept) := by
  induction hlength : arguments.length using Nat.strongRecOn
    generalizing arguments options with
  | ind n ih =>
    subst hlength
    cases arguments with
    | nil =>
      obtain rfl := Option.some.inj h
      exact ⟨[], .nothing, rfl, by rw [List.flatMap_nil, List.append_nil]⟩
    | cons token rest =>
      by_cases hend : token = "--"
      · rw [readProxyOptions.eq_def] at h
        dsimp only at h
        rw [if_pos hend] at h
        obtain rfl := Option.some.inj h
        exact ⟨[], .dashes rest, by rw [hend]; rfl, by
          rw [List.flatMap_nil, List.append_nil]⟩
      · cases hword : isPlainWord token with
        | true =>
          rw [readProxyOptions.eq_def] at h
          dsimp only at h
          rw [if_neg hend, if_pos hword] at h
          obtain rfl := Option.some.inj h
          exact ⟨[], .command ⟨token, hword⟩ rest, rfl, by
            rw [List.flatMap_nil, List.append_nil]⟩
        | false =>
          obtain ⟨word, tail, heq, htail⟩ := exists_optionWord hend hword h
          have hshorter : tail.length < (token :: rest).length := by
            have hpos := List.length_pos_iff.mpr word.words_ne_nil
            rw [heq, List.length_append]
            omega
          obtain ⟨after, remainder, hwords, rfl⟩ := ih _ hshorter htail rfl
          refine ⟨word :: after, remainder, ?_, ?_⟩
          · rw [heq, List.flatMap_cons, List.append_assoc, hwords]
          · rw [List.flatMap_cons, List.append_assoc]

/-- What is read in front of a destination. -/
theorem readProxyOptions_front {arguments : List String} {options : List (Char × String)}
    (h : readProxyOptions none options arguments = some result) :
    ∃ line : CommandLine, line.words = arguments
      ∧ result = (line.destination, options ++ line.options) := by
  induction hlength : arguments.length using Nat.strongRecOn
    generalizing arguments options with
  | ind n ih =>
    subst hlength
    cases arguments with
    | nil => cases h
    | cons token rest =>
      by_cases hend : token = "--"
      · rw [readProxyOptions.eq_def] at h
        dsimp only at h
        rw [if_pos hend] at h
        cases rest with
        | nil => cases h
        | cons destination rest =>
          obtain rfl := Option.some.inj h
          exact ⟨.dashed [] destination rest, by rw [hend]; rfl, by
            show _ = (destination, options ++ [])
            rw [List.append_nil]⟩
      · cases hword : isPlainWord token with
        | true =>
          rw [readProxyOptions.eq_def] at h
          dsimp only at h
          rw [if_neg hend, if_pos hword] at h
          obtain ⟨after, remainder, rfl, rfl⟩ := readProxyOptions_behind h
          exact ⟨.plain [] ⟨token, hword⟩ after remainder, rfl, rfl⟩
        | false =>
          obtain ⟨word, tail, heq, htail⟩ := exists_optionWord hend hword h
          have hshorter : tail.length < (token :: rest).length := by
            have hpos := List.length_pos_iff.mpr word.words_ne_nil
            rw [heq, List.length_append]
            omega
          obtain ⟨line, rfl, rfl⟩ := ih _ hshorter htail rfl
          rw [heq]
          cases line with
          | plain before destination after remainder =>
            refine ⟨.plain (word :: before) destination after remainder, ?_, ?_⟩
            · exact List.append_assoc _ _ _
            · simp only [CommandLine.destination, CommandLine.options,
                List.flatMap_cons, List.append_assoc]
          | dashed before destination rest =>
            refine ⟨.dashed (word :: before) destination rest, ?_, ?_⟩
            · exact List.append_assoc _ _ _
            · simp only [CommandLine.destination, CommandLine.options,
                List.flatMap_cons, List.append_assoc]

/-- The reader accepts the lines of the grammar and no others, with their destination and the
options that they set. -/
theorem sshProxyOptions_eq_some_iff {arguments : List String} {destination : String}
    {options : List (Char × String)} :
    sshProxyOptions arguments = some (destination, options)
      ↔ ∃ line : CommandLine, line.words = arguments ∧ line.destination = destination
        ∧ line.options = options := by
  constructor
  · intro h
    obtain ⟨line, hwords, heq⟩ := readProxyOptions_front h
    obtain ⟨rfl, rfl⟩ := Prod.mk.inj heq
    exact ⟨line, hwords, rfl, rfl⟩
  · rintro ⟨line, rfl, rfl, rfl⟩
    unfold sshProxyOptions
    cases line with
    | plain before destination after remainder =>
      have hword : readProxyOptions none (before.flatMap OptionWord.kept)
          (destination.val :: (after.flatMap OptionWord.words ++ remainder.words))
          = readProxyOptions (some destination.val) (before.flatMap OptionWord.kept)
            (after.flatMap OptionWord.words ++ remainder.words) := by
        rw [readProxyOptions.eq_def]
        dsimp only
        rw [if_neg (ne_dashes destination.property), if_pos destination.property]
      rw [CommandLine.words, readProxyOptions_flatMap, List.nil_append, hword,
        readProxyOptions_flatMap]
      cases remainder with
      | nothing => rfl
      | dashes rest => rfl
      | command first rest =>
        rw [Remainder.words, readProxyOptions.eq_def]
        dsimp only
        rw [if_neg (ne_dashes first.property), if_pos first.property]
        rfl
    | dashed before destination rest =>
      rw [CommandLine.words, readProxyOptions_flatMap, List.nil_append]
      rfl

end Mocop
