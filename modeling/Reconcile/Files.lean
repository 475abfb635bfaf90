namespace Reconcile

inductive FileError
  | notFound
  | notDirectory
  | isDirectory
  | nameTooLong
  | zeroByte
  | system (text : String) (number : Nat)
deriving DecidableEq, Repr

def FileError.numbered (text : String) (number : Nat) : String :=
  text ++ " (os error " ++ number.repr ++ ")"

def FileError.message : FileError → String
  | .notFound => numbered "No such file or directory" 2
  | .notDirectory => numbered "Not a directory" 20
  | .isDirectory => numbered "Is a directory" 21
  | .nameTooLong => numbered "File name too long" 36
  | .zeroByte => "file name contained an unexpected NUL byte"
  | .system text number => numbered text number

inductive Entry
  | file (content : List UInt8)
  | directory
deriving DecidableEq, Repr

/-- What can be opened. A directory is opened like a file but cannot be read. -/
structure Files where
  lookup : String → Except FileError Entry

def Entry.content : Entry → Except FileError (List UInt8)
  | .file content => .ok content
  | .directory => .error .isDirectory

end Reconcile
