import SqlOutline.Settings

namespace SqlOutline

/-- What is asked about a text. -/
inductive Question where
  | tokens | statements | predicates
  deriving DecidableEq

namespace Question

def name : Question → String
  | .tokens => "tokens"
  | .statements => "statements"
  | .predicates => "predicates"

def ofName? : String → Option Question
  | "tokens" => some .tokens
  | "statements" => some .statements
  | "predicates" => some .predicates
  | _ => none

theorem ofName?_name (q : Question) : ofName? q.name = some q := by
  cases q <;> rfl

end Question

/-- What a page of help is about. -/
inductive HelpTopic where
  | program
  | question (q : Question)
  /-- The word that asks for a page. -/
  | help
  deriving DecidableEq

/-- The page that the words after `help` name. -/
def HelpTopic.ofWords? : List String → Option HelpTopic
  | [] => some .program
  | ["help"] => some .help
  | [word] => (Question.ofName? word).map .question
  | _ => none

/-- A question, the name of the text, and how the text is read and the answer written. -/
structure Invocation where
  quoted : Bool
  blanks : Bool
  verbose : Bool
  question : Question
  json : Bool
  file : String
  deriving DecidableEq

/-- What the words of a command line ask for. -/
inductive Request where
  | answer (i : Invocation)
  | version
  | help (topic : HelpTopic)
  | misuse
  deriving DecidableEq

/-- The settings that the environment may make in place of a flag. -/
structure Environment where
  quoted : Option String := none
  blanks : Option String := none

namespace Environment

/-- The name of the variable that `quoted` is read from. -/
def quotedName : String :=
  "TSQL_SPAN_QUOTED_IDENTIFIERS"

/-- The name of the variable that `blanks` is read from. -/
def blanksName : String :=
  "TSQL_SPAN_WHITESPACE"

end Environment

namespace Request

/-- The flags that stand before the question. -/
structure Flags where
  quoted : Bool := false
  blanks : Bool := false
  verbose : Bool := false
  deriving DecidableEq

inductive Flag where
  | quoted | blanks | verbose | help | version
  deriving DecidableEq

def Flag.ofLetter? : Char → Option Flag
  | 'q' => some .quoted
  | 'w' => some .blanks
  | 'v' => some .verbose
  | 'h' => some .help
  | 'V' => some .version
  | _ => none

def Flag.ofName? : String → Option Flag
  | "--quoted-identifiers" => some .quoted
  | "--whitespace" => some .blanks
  | "--verbose" => some .verbose
  | "--help" => some .help
  | "--version" => some .version
  | _ => none

/-- Flags take effect one by one. Those that ask for help or the version answer at once; no flag may
be repeated, and an unknown one is misuse. -/
def Flags.raise (f : Flags) : Option Flag → Except Request Flags
  | some .help => .error (.help .program)
  | some .version => .error .version
  | some .quoted => if f.quoted then .error .misuse else .ok { f with quoted := true }
  | some .blanks => if f.blanks then .error .misuse else .ok { f with blanks := true }
  | some .verbose => if f.verbose then .error .misuse else .ok { f with verbose := true }
  | none => .error .misuse

/-- The flags in front, the word after them, and the rest. -/
def readFlags (f : Flags) : List String → Except Request (Flags × String × List String)
  | [] => .error .misuse
  | word :: rest =>
    match word.toList with
    | '-' :: '-' :: _ => do readFlags (← f.raise (Flag.ofName? word)) rest
    | '-' :: c :: cs => do
      readFlags (← (c :: cs).foldlM (fun f c => f.raise (Flag.ofLetter? c)) f) rest
    | _ => .ok (f, word, rest)

/-- Whether a word behind a question asks for help on it. Of joined letters the first decides. -/
def asksHelp (word : String) : Bool :=
  word = "--help" || "-h".toList.isPrefixOf word.toList

/-- The words after the question: one file, and perhaps one `--json`. After `--` each word is a
file. -/
def readRest (question : Question) (json : Bool) (file : Option String) (plain : Bool) :
    List String → Except Request (Bool × String)
  | [] =>
    match file with
    | some name => .ok (json, name)
    | none => .error .misuse
  | word :: rest =>
    if !plain && word == "--" then readRest question json file true rest
    else if !plain && word == "--json" then
      if json then .error .misuse else readRest question true file plain rest
    else if !plain && asksHelp word then .error (.help (.question question))
    else if !plain && word.startsWith "-" && word != "-" then .error .misuse
    else if file.isSome then .error .misuse
    else readRest question json (some word) plain rest

/-- The environment decides only what no flag has decided. It has two words for that. -/
def settle (raised : Bool) (value : Option String) : Except Request Bool :=
  if raised then .ok true
  else match value with
    | none => .ok false
    | some "true" => .ok true
    | some "false" => .ok false
    | some _ => .error .misuse

def read (args : List String) (env : Environment) : Except Request Invocation := do
  let (flags, name, rest) ← readFlags {} args
  if name = "help" then .error ((HelpTopic.ofWords? rest).elim .misuse .help)
  let some question := Question.ofName? name | .error .misuse
  let (json, file) ← readRest question false none false rest
  let quoted ← settle flags.quoted env.quoted
  let blanks ← settle flags.blanks env.blanks
  pure { quoted, blanks, verbose := flags.verbose, question, json, file }

def ofArguments (args : List String) (env : Environment) : Request :=
  match read args env with
  | .ok i => .answer i
  | .error r => r

end Request

end SqlOutline
