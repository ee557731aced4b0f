import GoGraft.Request.Decode
import GoGraft.Store.Access

/-! Settings, from a YAML text and from environment variables. -/

namespace GoGraft

structure Settings where
  maxFileSize : Nat
  checkSelfReferences : Bool
  skipUnchangedWrites : Bool
  diffContext : Nat
deriving DecidableEq, Repr

namespace Settings

def standard : Settings :=
  { maxFileSize := 1024 * 1024
    checkSelfReferences := true
    skipUnchangedWrites := true
    diffContext := 3 }

def keys : List Text :=
  ["max_file_size", "check_circular_references", "skip_unchanged_writes", "diff_context"].map
    (·.toList)

/-- Settings from a mapping. A setting that is absent keeps its standard value. -/
def ofYaml? (value : Yaml) : Option Settings := do
  let members ← value.members? keys
  let maxFileSize ← Readings.get? members "max_file_size" standard.maxFileSize Yaml.word?
  let checkSelfReferences ←
    Readings.get? members "check_circular_references" standard.checkSelfReferences Yaml.bool?
  let skipUnchangedWrites ←
    Readings.get? members "skip_unchanged_writes" standard.skipUnchangedWrites Yaml.bool?
  let diffContext ← Readings.get? members "diff_context" standard.diffContext Yaml.word?
  return ⟨maxFileSize, checkSelfReferences, skipUnchangedWrites, diffContext⟩

/-- Settings from a text; a text without a document changes nothing. -/
def ofText? (text : Text) : Option Settings :=
  if text.isBlank then
    some standard
  else do
    match ← Yaml.read? text with
    | some value => ofYaml? value
    | none => return standard

/-- A positive number of sixty-four bits. -/
def size? (text : Text) : Option Nat :=
  let digits :=
    match text with
    | '+' :: digits => digits
    | digits => digits
  (Text.digits? 10 digits).filter fun n => 0 < n && n ≤ Yaml.maxWord

def switch? (text : Text) : Option Bool :=
  let word := text.map Char.toLower
  if ["1", "true", "yes", "on"].any fun yes => word = yes.toList then
    some true
  else if ["0", "false", "no", "off"].any fun no => word = no.toList then
    some false
  else
    none

abbrev Environment := List (Text × Text)

/-- A variable of the environment, if it is set and its trimmed value can be read. -/
def fromEnvironment? {α : Type} (environment : Environment) (name : String)
    (read : Text → Option α) : Option α :=
  (environment.lookup name.toList).bind fun value => read value.trim

/-- Variables of the environment override settings; values that cannot be read are passed over. -/
def override (settings : Settings) (environment : Environment) : Settings :=
  { settings with
    maxFileSize :=
      (fromEnvironment? environment "OMNI_MUTATE_MAX_FILE_SIZE" size?).getD settings.maxFileSize
    checkSelfReferences :=
      (fromEnvironment? environment "OMNI_MUTATE_CHECK_CIRCULAR" switch?).getD
        settings.checkSelfReferences }

/-- Settings from a file of the store, with the environment on top. -/
def load? (store : Store) (path : Text) (environment : Environment) : Option Settings := do
  let content ← (← store.get? path).content?
  match Utf8.decode content with
  | .ok text => (ofText? text).map (·.override environment)
  | .error _ => none

end Settings

end GoGraft
