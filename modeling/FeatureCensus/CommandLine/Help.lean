import FeatureCensus.CommandLine.Options

/-!
# Help

The texts that explain the command line: the usage, the help, and the message about a
wrong command line.

Main definitions:

- Definition {lit}`CommandLine.usageMessage`: the message about a wrong command line.
- Definition {lit}`CommandLine.help`: the help.
-/

namespace FeatureCensus
namespace CommandLine

/-- The name of the program. -/
def programName : String := "ktrawler"

/-- The usage in one line. -/
def usage : String :=
  "usage: " ++ programName ++ " [options] <corpus-directory-path>\n"

/-- What is said about a wrong command line. -/
def usageMessage (error : UsageError) : String :=
  usage ++ programName ++ ": error: " ++ error.message ++ "\n"

/-! ## Layout -/

/-- The column at which explanations begin. -/
def helpColumn : Nat := 24

/-- The width of explanations. -/
def helpWidth : Nat := 54

/-- The width of the names of options. -/
def nameWidth : Nat := 20

/-- Adds a word to lines of a width, of which the last one comes first. -/
def addWord (width : Nat) (lines : List String) (word : String) : List String :=
  match lines with
  | [] => [word]
  | line :: rest =>
    if line.length + 1 + word.length ≤ width then (line ++ " " ++ word) :: rest
    else word :: lines

/-- The lines of a text of words. -/
def wrapWords (width : Nat) (words : List String) : List String :=
  (words.foldl (addWord width) []).reverse

/-- A row of blanks. -/
def blanks (n : Nat) : String :=
  String.ofList (List.replicate n ' ')

/-- The lines of an entry: its name and its explanation, which begins on the next line if
the name is too long. -/
def entryLines (name : String) (words : List String) : List String :=
  let lines := wrapWords helpWidth words
  let indented := lines.map (blanks helpColumn ++ ·)
  if name.length ≤ nameWidth then
    ("  " ++ name ++ blanks (nameWidth - name.length) ++ "  " ++ lines.headD "") :: indented.drop 1
  else ("  " ++ name) :: indented

/-! ## Entries -/

/-- The purpose of the program. -/
def purpose : String :=
  "Count the usage of Kotlin language features across a corpus of repositories."

/-- The words of the explanation of the corpus. -/
def corpusEntry : List String :=
  entryLines "corpus_directory_path"
    ["directory", "holding", "local", "repository", "copies,", "or", "a", "project", "with",
      "-only-analyze"]

/-- The explanations of the options, in the order in which they are listed. -/
def optionEntries : List (List String) :=
  [entryLines "-h, --help" ["show", "this", "help", "message", "and", "exit"],
    entryLines Switch.localOnly.spelling
      ["use", "local", "repository", "versions,", "do", "not", "update", "from", "GitHub"],
    entryLines Switch.statsOnly.spelling
      ["don't", "track", "individual", "usages,", "only", "their", "counts"],
    entryLines Switch.onlyAnalyze.spelling
      ["only", "analyze", "a", "local", "corpus,", "no", "interaction", "with", "GitHub"],
    entryLines (Setting.maxProjects.spelling ++ " MAX_REPO_COUNT")
      ["maximum", "number", "of", "repos", "to", "process"],
    entryLines Switch.continueOnFailure.spelling
      ["skip", "repositories", "that", "fail", "to", "clone", "instead", "of", "stopping",
        "discovery"],
    entryLines (Setting.database.spelling ++ " DB_FILEPATH")
      ["path", "to", "an", "sqlite", "database", "to", "export", "results", "to"],
    entryLines Switch.hideProgress.spelling ["do", "not", "display", "a", "progress", "bar"]]

/-- The help. -/
def help : String :=
  usage ++ "\n" ++ purpose ++ "\n\n" ++
    "\n".intercalate
      (["positional arguments:"] ++ corpusEntry ++ ["", "options:"] ++ optionEntries.flatten) ++
    "\n"

end CommandLine
end FeatureCensus
