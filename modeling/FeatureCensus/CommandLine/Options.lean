import FeatureCensus.Results.Address
import FeatureCensus.Text.Integer

/-!
# Command-line options

The words of a command line and the options that they stand for.  Options are spelled
exactly, in front of the word {lit}`--`; the first plain word names the corpus.  Words
are read as release 3.11.2 of the standard reader of command lines does it; later ones,
such as 3.11.10, take a value behind a switch and a divider as a value differently.

Main results:

- Theorem {lit}`CommandLine.classify_spelling`: an exactly spelled switch is recognized.
-/

namespace FeatureCensus
namespace CommandLine

open Text

/-! ## Options -/

/-- What a command line asks for. -/
structure Options where
  localOnly : Bool := false
  statsOnly : Bool := false
  onlyAnalyze : Bool := false
  /-- The number of projects, unless an option for it leaves it out. -/
  maxProjects? : Option Int := some 1000000
  continueOnFailure : Bool := false
  destination : Destination := .nowhere
  hideProgress : Bool := false
  corpusPath : String := ""
  deriving DecidableEq, Repr, Inhabited

/-- The options without a value. -/
inductive Switch where
  | localOnly
  | statsOnly
  | onlyAnalyze
  | continueOnFailure
  | hideProgress
  deriving DecidableEq, Repr, Inhabited

/-- The options with a value. -/
inductive Setting where
  | maxProjects
  | database
  deriving DecidableEq, Repr, Inhabited

/-- Everything that a word with a hyphen may name. -/
inductive OptionName where
  | help
  /-- The help in its form with two hyphens. -/
  | longHelp
  | switch (switch : Switch)
  | setting (setting : Setting)
  deriving DecidableEq, Repr, Inhabited

/-- The spelling of a switch. -/
def Switch.spelling : Switch → String
  | localOnly => "-local"
  | statsOnly => "-stats-only"
  | onlyAnalyze => "-only-analyze"
  | continueOnFailure => "-continue-on-failure"
  | hideProgress => "-no-progress"

/-- The spelling of a setting. -/
def Setting.spelling : Setting → String
  | maxProjects => "-max-repo-count"
  | database => "-db"

/-- All switches. -/
def Switch.all : List Switch :=
  [localOnly, statsOnly, onlyAnalyze, continueOnFailure, hideProgress]

/-- All settings. -/
def Setting.all : List Setting :=
  [maxProjects, database]

/-- All options by their spellings. -/
def optionNames : List (String × OptionName) :=
  [("-h", .help), ("--help", .longHelp)] ++
    Switch.all.map (fun switch => (switch.spelling, .switch switch)) ++
    Setting.all.map (fun setting => (setting.spelling, .setting setting))

/-- How messages name an option. -/
def OptionName.shown : OptionName → String
  | help | longHelp => "-h/--help"
  | switch s => s.spelling
  | setting s => s.spelling

/-- Turns a switch on. -/
def Options.switchOn (options : Options) : Switch → Options
  | .localOnly => { options with localOnly := true }
  | .statsOnly => { options with statsOnly := true }
  | .onlyAnalyze => { options with onlyAnalyze := true }
  | .continueOnFailure => { options with continueOnFailure := true }
  | .hideProgress => { options with hideProgress := true }

/-! ## Errors -/

/-- What is wrong with a command line. -/
inductive UsageError where
  | unrecognized (words : List String)
  | missingCorpus
  | missingValue (option : OptionName)
  | needlessValue (option : OptionName) (value : String)
  | badNumber (option : OptionName) (text : String)
  deriving DecidableEq, Repr, Inhabited

/-- The text of the error. -/
def UsageError.message : UsageError → String
  | unrecognized words => "unrecognized arguments: " ++ " ".intercalate words
  | missingCorpus => "the following arguments are required: corpus_directory_path"
  | missingValue option => "argument " ++ option.shown ++ ": expected one argument"
  | needlessValue option value =>
    "argument " ++ option.shown ++ ": ignored explicit argument " ++ quoted value
  | badNumber option text =>
    "argument " ++ option.shown ++ ": invalid int value: " ++ quoted text

/-- Why a command line gives no options. -/
inductive Stop where
  /-- It asks for help. -/
  | help
  | wrong (error : UsageError)
  deriving DecidableEq, Repr, Inhabited

/-! ## Words -/

/-- The word after which all words are plain. -/
def divider : String := "--"

/-- What a word in front of the divider is. -/
inductive Word where
  | plain
  | option (name : OptionName) (value? : Option String)
  | unknown
  deriving DecidableEq, Repr, Inhabited

/-- The part of a word before its first equals sign, and the part after it. -/
def splitValue (word : String) : String × Option String :=
  (String.ofList (word.toList.takeWhile (· != '=')),
    match word.toList.dropWhile (· != '=') with
    | [] => none
    | _ :: value => some (String.ofList value))

/-- Whether a word is a hyphen with decimal digits. -/
def isNegativeNumber (word : String) : Bool :=
  match word.toList with
  | '-' :: digits => !digits.isEmpty && digits.all isDecimalDigit
  | _ => false

/-- Whether a word cannot be an option: it has no hyphen in front, or nothing after it. -/
def isPlainWord (word : String) : Bool :=
  word.toList.head? != some '-' || word == "-"

/-- What a word is. -/
def classify (word : String) : Word :=
  if isPlainWord word then .plain
  else match optionNames.lookup word with
    | some name => .option name none
    | none =>
      match optionNames.lookup (splitValue word).1, (splitValue word).2 with
      | some name, some value => .option name (some value)
      | _, _ => if isNegativeNumber word then .plain else .unknown

/-- Whether a word looks like an option but is none.  A hyphen with digits of any kind is
left for later. -/
def isMisspelled (word : String) : Bool :=
  !isPlainWord word && !(word.toList.drop 1).all isDigitLike &&
    (optionNames.lookup (splitValue word).1).isNone

/-- The first misspelled option in front of the divider. -/
def misspelled? (words : List String) : Option String :=
  (words.takeWhile (· != divider)).find? isMisspelled

/-- An exactly spelled switch is recognized. -/
theorem classify_spelling (switch : Switch) :
    classify switch.spelling = .option (.switch switch) none := by
  cases switch <;> decide +kernel

/-! ## Scanning -/

/-- What the words so far have told: options, the corpus, and words too many. -/
structure Draft where
  options : Options := {}
  corpus? : Option String := none
  extras : List String := []
  deriving DecidableEq, Repr, Inhabited

/-- Adds words too many. -/
def Draft.addExtras (draft : Draft) (words : List String) : Draft :=
  { draft with extras := draft.extras ++ words }

/-- Gives a setting its value. -/
def Draft.give (draft : Draft) (setting : Setting) (text : String) : Except Stop Draft :=
  match setting with
  | .database =>
    .ok { draft with options := { draft.options with destination := .database text } }
  | .maxProjects =>
    match parseInteger text with
    | .ok n => .ok { draft with options := { draft.options with maxProjects? := some n } }
    | .error _ => .error (.wrong (.badNumber (.setting setting) text))

/-- Leaves out the value of a setting. -/
def Draft.leaveOut (draft : Draft) : Setting → Draft
  | .database => { draft with options := { draft.options with destination := .unnamed } }
  | .maxProjects => { draft with options := { draft.options with maxProjects? := none } }

/-- Takes an option without a value of its own.  A setting takes the next word. -/
def Draft.takeOption (draft : Draft) (name : OptionName) (next? : Option String) :
    Except Stop Draft :=
  match name, next? with
  | .help, _ | .longHelp, _ => .error .help
  | .switch switch, _ => .ok { draft with options := draft.options.switchOn switch }
  | .setting setting, some next => draft.give setting next
  | .setting setting, none => .error (.wrong (.missingValue (.setting setting)))

/-- What stops at a value that the option before it does not take, in release 3.11.2.  Behind
one hyphen the letters of the value are options themselves, of which there is only that of
the help. -/
def stopAtValue (name : OptionName) (value : String) : Stop :=
  let rest := value.toList.dropWhile (· == 'h')
  if name = .longHelp || value.isEmpty then .wrong (.needlessValue name value)
  else if rest.isEmpty then .help
  else if rest.length = value.length then .wrong (.needlessValue name value)
  else .wrong (.needlessValue .help (String.ofList rest))

/-- Takes an option with a value of its own, which only settings may have.  A divider is no
value in release 3.11.2. -/
def Draft.takeValue (draft : Draft) (name : OptionName) (value : String) : Except Stop Draft :=
  match name with
  | .setting setting =>
    if value = divider then .ok (draft.leaveOut setting) else draft.give setting value
  | other => .error (stopAtValue other value)

/-- The words after the divider: the first one names the corpus if none did so before. -/
def Draft.finish (draft : Draft) (words : List String) : Draft :=
  match draft.corpus?, words with
  | none, word :: rest => { draft.addExtras rest with corpus? := some word }
  | _, _ => draft.addExtras (divider :: words)

/-- Takes a plain word, and the divider if it follows the name of the corpus. -/
def Draft.takePlain (draft : Draft) (word : String) : Draft :=
  match draft.corpus? with
  | none => { draft with corpus? := some word }
  | some _ => draft.addExtras [word]

/-- Whether a word can be the value of a setting. -/
def isValue (word : String) : Bool :=
  word != divider && classify word == .plain

/-- Takes words one after the other. -/
def scan (draft : Draft) : List String → Except Stop Draft
  | [] => .ok draft
  | word :: rest =>
    if word = divider then .ok (draft.finish rest)
    else match classify word with
      | .unknown => scan (draft.addExtras [word]) rest
      | .plain =>
        if draft.corpus?.isNone && rest.head? == some divider then
          .ok ((draft.takePlain word).addExtras (rest.drop 1))
        else scan (draft.takePlain word) rest
      | .option name (some value) =>
        match draft.takeValue name value with
        | .error stop => .error stop
        | .ok next => scan next rest
      | .option (.setting setting) none =>
        match rest with
        | [] => .error (.wrong (.missingValue (.setting setting)))
        | value :: more =>
          let value? := if isValue value then some value else none
          match draft.takeOption (.setting setting) value? with
          | .error stop => .error stop
          | .ok next => scan next more
      | .option name none =>
        match draft.takeOption name none with
        | .error stop => .error stop
        | .ok next => scan next rest

/-- The options of a finished draft. -/
def Draft.toOptions (draft : Draft) : Except Stop Options :=
  match draft.corpus? with
  | none => .error (.wrong .missingCorpus)
  | some corpusPath =>
    if draft.extras.isEmpty then .ok { draft.options with corpusPath }
    else .error (.wrong (.unrecognized draft.extras))

/-- The options of a command line.  Misspelled options are found before anything else. -/
def parse (words : List String) : Except Stop Options :=
  match misspelled? words with
  | some word => .error (.wrong (.unrecognized [word]))
  | none => do (← scan {} words).toOptions

end CommandLine
end FeatureCensus
