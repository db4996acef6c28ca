import SqlOutline.Command.Request
import SqlOutline.Text.Column

namespace SqlOutline

def Question.summary : Question → String
  | .tokens => "Print every token with its span and type"
  | .statements => "Print every statement and its clauses"
  | .predicates => "Split the WHERE clause of each SELECT into predicates"

/-- The state of a variable of the environment. One that is not set looks as if it were empty. -/
def Environment.note (name : String) (value : Option String) : String :=
  " [env: " ++ name ++ "=" ++ value.getD "" ++ "]"

namespace HelpTopic

def summary : HelpTopic → String
  | .program => "Command-line driver that tokenizes and splits T-SQL into clauses"
  | .question q => q.summary
  | .help => "Print this message or the help of the given subcommand(s)"

def usage : HelpTopic → String
  | .program => "tsql-span [OPTIONS] <COMMAND>"
  | .question q => "tsql-span " ++ q.name ++ " [OPTIONS] <INPUT>"
  | .help => "tsql-span help [COMMAND]..."

/-- A title, and rows of something to write and its meaning. -/
structure Section where
  title : String
  rows : List (String × String)

/-- The meanings stand under one another. -/
def Section.text (s : Section) : List Char :=
  let width := (s.rows.map (·.1.length)).foldl max 0
  '\n' :: s.title.toList ++ ":\n".toList ++ s.rows.flatMap fun r =>
    "  ".toList ++ Text.flushLeft width r.1.toList ++ "  ".toList ++ r.2.toList ++ ['\n']

def helpRow : String × String :=
  ("-h, --help", "Print help")

def sections (env : Environment) : HelpTopic → List Section
  | .program => [
    ⟨"Commands",
      [Question.tokens, .statements, .predicates].map (fun q => (q.name, q.summary)) ++
        [("help", HelpTopic.help.summary)]⟩,
    ⟨"Options", [
      ("-q, --quoted-identifiers",
        "Treat \"double quoted\" text as identifiers instead of strings" ++
          Environment.note Environment.quotedName env.quoted),
      ("-w, --whitespace",
        "Keep whitespace runs as tokens" ++ Environment.note Environment.blanksName env.blanks),
      ("-v, --verbose", "Enable verbose output"),
      helpRow,
      ("-V, --version", "Print version")]⟩]
  | .question _ => [
    ⟨"Arguments", [("<INPUT>", "Input file, or `-` for stdin")]⟩,
    ⟨"Options", [("    --json", "Emit JSON instead of text"), helpRow]⟩]
  | .help => [⟨"Arguments", [("[COMMAND]...", "Print help for the subcommand(s)")]⟩]

def text (env : Environment) (t : HelpTopic) : List Char :=
  t.summary.toList ++ "\n\nUsage: ".toList ++ t.usage.toList ++ '\n' ::
    (t.sections env).flatMap Section.text

end HelpTopic

end SqlOutline
