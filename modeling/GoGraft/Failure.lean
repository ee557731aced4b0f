import GoGraft.File.Check
import GoGraft.File.Edit
import GoGraft.Request.Basic
import GoGraft.Store.Access

/-! Why work on a file can fail. -/

namespace GoGraft

inductive Failure where
  | unread (error : StoreError)
  | unparsed (path : Text) (error : ParseError)
  | unedited (error : EditError)
  | targetNotFound (record : Text)
  | invalid (violations : List Violation)
  | refused (error : RequestError)
  | unwritten (path : Text) (error : StoreError)
  | unrestored (path : Text) (error : StoreError)
  /-- A failure after which the file could not be restored either. -/
  | stranded (cause : Failure) (error : StoreError)
  | unconfigured
deriving DecidableEq, Repr

def Failure.message : Failure → Text
  | .unread error => "IO error: ".toList ++ error.message
  | .unparsed path error => "Parse error in ".toList ++ path ++ ": ".toList ++ error.message
  | .unedited error => "Edit error: ".toList ++ error.message
  | .targetNotFound record => "Target struct type `".toList ++ record ++ "` not found".toList
  | .invalid violations =>
      "Validation failed: ".toList ++
        Text.join "; ".toList (violations.map Violation.message)
  | .refused error => "Invalid modification: ".toList ++ error.message
  | .unwritten path error => "Failed to write ".toList ++ path ++ ": ".toList ++ error.message
  | .unrestored path error => "Failed to restore ".toList ++ path ++ ": ".toList ++ error.message
  | .stranded cause error =>
      cause.message ++ "; rollback also failed: ".toList ++ error.message
  | .unconfigured => "Config error".toList

end GoGraft
