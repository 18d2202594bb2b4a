import TypeQuery.Project
import TypeQuery.Query

/-!
# TypeQuery.Failure

Why a query has no answer. A query has a complete answer or exactly one failure, which belongs to the
first stage that fails: the arguments, the file, the project, the program, the target.
-/

namespace TypeQuery

/-- Why there is no program to ask. -/
inductive ProgramFault where
  /-- The program could not be built, for these reasons, the outermost first. -/
  | notBuilt (reasons : List String)
  /-- The program does not have the file. -/
  | fileMissing (file : String)
  deriving DecidableEq, Repr

/-- The fault in words. -/
def ProgramFault.message : ProgramFault → String
  | .notBuilt reasons => ": ".intercalate reasons
  | .fileMissing file => file ++ " is not part of the program"

/-- Why a query has no answer. -/
inductive Failure where
  | fileNotFound (path : Path)
  | invalidQuery (fault : QueryFault)
  | projectUnresolved (fault : ProjectFault)
  | programUnavailable (fault : ProgramFault)
  deriving Repr

/-- The failure in words. -/
def Failure.message : Failure → String
  | .fileNotFound path => "file not found: " ++ path.text
  | .invalidQuery fault => "invalid query: " ++ fault.message
  | .projectUnresolved fault => "could not resolve project: " ++ fault.message
  | .programUnavailable fault => "could not build program: " ++ fault.message

end TypeQuery
