/-!
# Diagnostics

What a failure tells its reader. Each part of the library has its own type of errors, whose
constructors are the causes; a diagnostic holds the words for one of them.
-/

namespace BoundSql

/-- The words of a failure. -/
structure Diagnostic where
  /-- What went wrong. -/
  message : String
  /-- A stable name of the cause. -/
  code : String
  /-- What the reader can do about it. -/
  help : Option String
deriving DecidableEq, Repr

end BoundSql
