/-!
# Faults of the file system

Why something cannot be done with files.
-/

namespace Stencil.Files

/-- Why something cannot be done. -/
inductive Fault where
  | notFound
  | notADirectory
  | isADirectory
  | alreadyExists
  | notEmpty
  /-- More links in a row than can be followed. -/
  | tooManyLinks
  /-- A name that is too long. -/
  | nameTooLong
  /-- A path that can be no path, or that cannot be used so. -/
  | badPath
  /-- Bytes that are not a text. -/
  | notText
  | busy
  deriving DecidableEq, Inhabited

/-- The message of a fault. -/
def Fault.message : Fault → String
  | notFound => "No such file or directory (os error 2)"
  | notADirectory => "Not a directory (os error 20)"
  | isADirectory => "Is a directory (os error 21)"
  | alreadyExists => "File exists (os error 17)"
  | notEmpty => "Directory not empty (os error 39)"
  | tooManyLinks => "Too many levels of symbolic links (os error 40)"
  | nameTooLong => "File name too long (os error 36)"
  | badPath => "Invalid argument (os error 22)"
  | notText => "stream did not contain valid UTF-8"
  | busy => "Device or resource busy (os error 16)"

end Stencil.Files
