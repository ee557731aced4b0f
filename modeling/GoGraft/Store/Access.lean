import GoGraft.Store.Basic

/-! Reading files within a limit, and why files cannot be read or written. -/

namespace GoGraft

inductive StoreError where
  | notFound (path : Text)
  | tooLarge (size limit : Nat)
  | binary
  | notUtf8 (offset : Nat)
  /-- No file can take the place of what the path leads to. -/
  | notReplaced (path reason : Text)
  /-- The path cannot be reached, or the system refuses to go on. -/
  | inaccessible
deriving DecidableEq, Repr

def StoreError.message : StoreError → Text
  | .notFound path => "File not found: ".toList ++ path
  | .tooLarge size limit =>
      "File too large: ".toList ++ Text.ofNat size ++ " bytes (limit: ".toList ++
        Text.ofNat limit ++ [')']
  | .binary => "Binary file detected".toList
  | .notUtf8 offset => "UTF-8 decoding error at byte ".toList ++ Text.ofNat offset
  | .notReplaced path reason => "Failed to replace ".toList ++ path ++ ": ".toList ++ reason
  | .inaccessible => "IO error".toList

/-- The number of bytes that are looked at to tell binary content from text. -/
def binaryWindow : Nat := 8192

def isBinary (content : Bytes) : Bool :=
  (content.take binaryWindow).contains 0

/-- The text of some content. -/
def decodeContent (content : Bytes) : Except StoreError Text :=
  if isBinary content then
    .error .binary
  else
    (Utf8.decode content).mapError .notUtf8

namespace Store

/-- The content of a file of at most `limit` bytes that is not binary. -/
def read (store : Store) (path : Text) (limit : Nat) : Except StoreError Bytes :=
  match store.get? path with
  | none => .error (.notFound path)
  | some (.directory _) => .error .inaccessible
  | some (.file content _) =>
      if limit < content.length then
        .error (.tooLarge content.length limit)
      else if isBinary content then
        .error .binary
      else
        .ok content

end Store

end GoGraft
