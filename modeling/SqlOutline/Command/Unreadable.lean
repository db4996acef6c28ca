namespace SqlOutline

/-- Why a text could not be had. -/
inductive Unreadable where
  | missing
  | forbidden
  /-- The name goes on behind something that is no directory. -/
  | notDirectory
  | directory
  | longName
  /-- The bytes are no text. -/
  | malformed
  | other (reason : String)
  deriving DecidableEq

def Unreadable.reason : Unreadable → String
  | .missing => "No such file or directory (os error 2)"
  | .forbidden => "Permission denied (os error 13)"
  | .notDirectory => "Not a directory (os error 20)"
  | .directory => "Is a directory (os error 21)"
  | .longName => "File name too long (os error 36)"
  | .malformed => "stream did not contain valid UTF-8"
  | .other reason => reason

end SqlOutline
