import SqlOutline.Command.Help
import SqlOutline.Command.Log
import SqlOutline.Command.Unreadable
import SqlOutline.Outline
import SqlOutline.Report
import SqlOutline.Report.Json
import SqlOutline.Statement.Json

namespace SqlOutline

/-- What a run of the program leaves behind. -/
structure Outcome where
  code : Nat := 0
  stdout : List Char := []
  stderr : List Char := []

/-- The file name that means standard input. -/
def standardInput : String :=
  "-"

namespace Invocation

def settings (i : Invocation) : Settings :=
  { quoted := i.quoted, blanks := i.blanks }

def jsonOutput (xs : List Json) : List Char :=
  Json.pretty 0 (.array xs) ++ ['\n']

def lineOutput (ls : List (List Char)) : List Char :=
  ls.flatMap (· ++ ['\n'])

/-- The predicates of each query that has a WHERE clause of its own, under the number of its
statement. The query of an INSERT is none of these. -/
def conditions (statements : List Statement) : List (Nat × List Predicate) :=
  statements.zipIdx.filterMap fun (statement, index) =>
    match statement with
    | .select { core := { whereClause := some c, .. }, .. } => some (index + 1, c.predicates)
    | _ => none

def conditionJson (c : Nat × List Predicate) : Json :=
  .object [("statement", .number c.1), ("predicates", .array (c.2.map Predicate.toJson))]

def conditionLines (c : Nat × List Predicate) : List (List Char) :=
  ('#' :: Text.decimal c.1) :: c.2.map Predicate.line

def answerTokens (i : Invocation) (text : List Char) : Outcome :=
  let tokens := tokenize i.settings text
  { stdout :=
      if i.json then jsonOutput (tokens.map Token.flatJson) else lineOutput (tokens.map Token.line)
    stderr := Log.info (Log.count "Read" tokens.length "token" i.file) }

def answerStatements (i : Invocation) (statements : List Statement) : Outcome :=
  { stdout :=
      if i.json then jsonOutput (statements.map Statement.toJson)
      else lineOutput (statements.zipIdx.flatMap fun (s, index) => s.lines (index + 1)) }

def answerPredicates (i : Invocation) (statements : List Statement) : Outcome :=
  let found := conditions statements
  { stdout :=
      if i.json then jsonOutput (found.map conditionJson)
      else lineOutput (found.flatMap conditionLines)
    stderr :=
      if found.isEmpty then
        Log.info ("No SELECT statement with a WHERE clause in ".toList ++ i.file.toList)
      else [] }

/-- An answer about the statements of a text. A fault takes its place, whatever stood before. -/
def answerOutline (i : Invocation) (o : Outline) (answer : List Statement → Outcome) : Outcome :=
  let events := o.log.flatMap fun e => Log.debug i.verbose (Log.event e)
  match o.result with
  | .error fault =>
    let failure := Log.failure ("Failed to parse ".toList ++ i.file.toList) fault.message
    { code := 1, stderr := events ++ failure }
  | .ok statements =>
    let rest := answer statements
    let parsed := Log.info (Log.count "Parsed" statements.length "statement" i.file)
    { rest with stderr := events ++ parsed ++ rest.stderr }

def answerText (i : Invocation) (text : List Char) : Outcome :=
  match i.question with
  | .tokens => i.answerTokens text
  | .statements => i.answerOutline (.ofText i.settings text) i.answerStatements
  | .predicates => i.answerOutline (.ofText i.settings text) i.answerPredicates

/-- The name of the input in a failure to read it. -/
def inputName (i : Invocation) : List Char :=
  (if i.file = standardInput then "stdin" else i.file).toList

def answer (i : Invocation) (input : Except Unreadable (List Char)) : Outcome :=
  let rest :=
    match input with
    | .ok text => i.answerText text
    | .error e =>
      let failure := Log.failure ("Failed to read ".toList ++ i.inputName) e.reason.toList
      { code := 1, stderr := failure }
  { rest with stderr := Log.debug i.verbose (Log.settings i.settings) ++ rest.stderr }

end Invocation

namespace Request

def versionText : String :=
  "tsql-span 0.1.0\n"

/-- The outcome of a request; `input` is the text that an invocation names. -/
def outcome (r : Request) (env : Environment) (input : Except Unreadable (List Char)) : Outcome :=
  match r with
  | .answer i => i.answer input
  | .version => { stdout := versionText.toList }
  | .help topic => { stdout := topic.text env }
  | .misuse => { code := 2 }

end Request

end SqlOutline
