/-!
# Faults of files

Why a file cannot be read, written or started, with the wording that the system has for it.
-/

namespace Normative

/-- Why a file cannot be read, written or started. -/
inductive FileFault where
  | missing
  | denied
  | notADirectory
  | isADirectory
  | nameTooLong
  | nulInPath
  | nulInCommand
  | notText
  deriving DecidableEq

/-- The wording of a fault. -/
def FileFault.message : FileFault → String
  | missing => "No such file or directory (os error 2)"
  | denied => "Permission denied (os error 13)"
  | notADirectory => "Not a directory (os error 20)"
  | isADirectory => "Is a directory (os error 21)"
  | nameTooLong => "File name too long (os error 36)"
  | nulInPath => "file name contained an unexpected NUL byte"
  | nulInCommand => "nul byte found in provided data"
  | notText => "stream did not contain valid UTF-8"

end Normative
