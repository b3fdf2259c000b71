namespace TimingDiagram

-- Why a file could not be read or written.
inductive FileError where
  | notFound
  | notDirectory
  | isDirectory
  | nameTooLong
  | nulInName
  | notText
  | other (message : String)
deriving DecidableEq, Repr

def FileError.message : FileError → String
  | .notFound => "No such file or directory (os error 2)"
  | .notDirectory => "Not a directory (os error 20)"
  | .isDirectory => "Is a directory (os error 21)"
  | .nameTooLong => "File name too long (os error 36)"
  | .nulInName => "file name contained an unexpected NUL byte"
  | .notText => "stream did not contain valid UTF-8"
  | .other message => message

-- A path ends before a NUL, so one that holds a NUL means no file.
def checkPath (path : String) : Except FileError Unit :=
  if path.toList.contains '\x00' then .error .nulInName else .ok ()

-- The operations on files that a run needs. An operation that fails changes nothing.
class Files (m : Type → Type) where
  isPresent : String → m Bool
  readText : String → m (Except FileError String)
  writeText : String → String → m (Except FileError Unit)

end TimingDiagram
