import ErrorQuery.Config.Reader

/-!
# Configurations from files

A configuration may come from a text given on the spot or from a file.  A file that cannot be
used leaves the user with the standard configuration and a warning.
-/

set_option autoImplicit false

namespace ErrorQuery.Config

/-- What is found at the path of a file. -/
inductive FileContent where
  | missing
  | directory
  | bytes (content : ByteArray)

/-- Why a file yields no text. -/
inductive FileFault where
  | missing
  | directory
  | notUtf8
  deriving DecidableEq, Repr

/-- The wording of a fault. -/
def FileFault.message : FileFault → String
  | .missing => "No such file or directory (os error 2)"
  | .directory => "Is a directory (os error 21)"
  | .notUtf8 => "stream did not contain valid UTF-8"

/-- Why there is no configuration. -/
inductive Error where
  | unreadable (path : String) (fault : FileFault)
  | unusable (path : String) (fault : Json.Fault)

/-- The wording of an error. -/
def Error.message : Error → String
  | .unreadable path fault => "cannot read config file " ++ path ++ ": " ++ fault.message
  | .unusable path fault => "cannot parse config " ++ path ++ ": " ++ fault.message

/-- The text of a file. -/
def FileContent.text : FileContent → Except FileFault String
  | .missing => .error .missing
  | .directory => .error .directory
  | .bytes content =>
      match String.fromUTF8? content with
      | some text => .ok text
      | none => .error .notUtf8

/-- The configuration in a text that comes from the given path. -/
def ofText (path text : String) : Except Error Config :=
  (read text).mapError (.unusable path)

/-- The configuration in a text given on the spot. -/
def ofString (text : String) : Except Error Config :=
  ofText "<inline>" text

/-- The configuration in a file. -/
def ofFile (path : String) (content : FileContent) : Except Error Config :=
  match content.text with
  | .ok text => ofText path text
  | .error fault => .error (.unreadable path fault)

/-- The configuration in a file, or the standard one, and what is logged about it. -/
def loadOrStandard (path : String) (content : FileContent) : Config × List Record :=
  match ofFile path content with
  | .ok config => (config, [])
  | .error e =>
      (standard, [⟨.warn, e.message ++ "; using default compiler configuration"⟩])

end ErrorQuery.Config
