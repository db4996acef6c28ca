import SqlOutline.Command.Answer

open SqlOutline

namespace SqlOutline.Command

/-- The number of an error of the system. Some sources count them down from zero. -/
def errorNumber (code : UInt32) : UInt32 :=
  min code (0 - code)

def unreadable : IO.Error → Unreadable
  | .noFileOrDirectory .. => .missing
  | .permissionDenied .. => .forbidden
  | .inappropriateType _ code _ => if errorNumber code = 21 then .directory else .notDirectory
  | .invalidArgument file code details =>
    if errorNumber code = 36 then .longName
    else .other (toString (IO.Error.invalidArgument file code details))
  | e => .other (toString e)

def readText (file : String) : IO (Except Unreadable (List Char)) := do
  try
    let bytes ←
      if file = standardInput then (← IO.getStdin).readBinToEnd else IO.FS.readBinFile file
    match String.fromUTF8? bytes with
    | some text => return .ok text.toList
    | none => return .error .malformed
  catch e => return .error (unreadable e)

def readEnvironment : IO Environment := do
  let quoted ← IO.getEnv Environment.quotedName
  let blanks ← IO.getEnv Environment.blanksName
  return { quoted, blanks }

end SqlOutline.Command

def main (args : List String) : IO UInt32 := do
  let env ← Command.readEnvironment
  let request := Request.ofArguments args env
  let input ← match request with
    | .answer i => Command.readText i.file
    | _ => pure (.ok [])
  let outcome := request.outcome env input
  (← IO.getStderr).putStr (String.ofList outcome.stderr)
  (← IO.getStdout).putStr (String.ofList outcome.stdout)
  return outcome.code.toUInt32
