import SqlOutline.Fault
import SqlOutline.Settings

namespace SqlOutline.Log
open Text

/-- Each line names its level, on the right of five places. -/
def line (level : String) (message : List Char) : List Char :=
  flushRight 5 level.toList ++ ' ' :: message ++ ['\n']

def info (message : List Char) : List Char :=
  line "INFO" message

/-- Only the talkative log has these. -/
def debug (verbose : Bool) (message : List Char) : List Char :=
  if verbose then line "DEBUG" message else []

def truth (b : Bool) : List Char :=
  (if b then "true" else "false").toList

def settings (s : Settings) : List Char :=
  "lexer options options=Options \x7b use_quoted_identifiers: ".toList ++ truth s.quoted ++
    ", include_whitespace: ".toList ++ truth s.blanks ++ ", max_nesting_depth: ".toList ++
    decimal s.depth ++ " \x7d".toList

def event : Event → List Char
  | .subquery depth => "parsing subquery depth=".toList ++ decimal depth
  | .parsed kind span =>
    "parsed statement kind=".toList ++ kind.spelling.toList ++ " begin=".toList ++
      decimal span.first ++ " end=".toList ++ decimal span.last
  | .failed fault => "statement parse failed error=".toList ++ fault.message

/-- How many things of a kind a text holds. -/
def count (verb : String) (n : Nat) (noun : String) (file : String) : List Char :=
  verb.toList ++ ' ' :: decimal n ++ ' ' :: noun.toList ++ "(s) from ".toList ++ file.toList

/-- A failure and its cause. The lines of the cause are indented. -/
def failure (message cause : List Char) : List Char :=
  "Error: ".toList ++ message ++ "\n\nCaused by:\n    ".toList ++
    cause.flatMap (fun c => if c = '\n' then "\n    ".toList else [c]) ++ ['\n']

end SqlOutline.Log
