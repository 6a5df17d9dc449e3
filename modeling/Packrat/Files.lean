import Packrat.Json.Decode
import Packrat.Yaml.Config

namespace Packrat

inductive ReadFault : Type
  | missing : ReadFault
  | directory : ReadFault
  | notDirectory : ReadFault
  | notText : ReadFault
  | other (reason : String) : ReadFault
  deriving DecidableEq

namespace ReadFault

def reason : ReadFault → String
  | missing => "No such file or directory (os error 2)"
  | directory => "Is a directory (os error 21)"
  | notDirectory => "Not a directory (os error 20)"
  | notText => "stream did not contain valid UTF-8"
  | other reason => reason

def error (f : ReadFault) (path : String) : Error := .config s!"cannot read {path}: {f.reason}"

end ReadFault

def decodeText (bytes : ByteArray) : Except ReadFault String :=
  match String.fromUTF8? bytes with
  | some text => pure text
  | none => throw .notText

abbrev Files (m : Type → Type) : Type := String → m (Except ReadFault String)

namespace Files

variable {m : Type → Type} [Monad m]

def text (files : Files m) (path : String) : ExceptT Error m String := do
  match ← files path with
  | .ok text => pure text
  | .error f => throw (f.error path)

end Files

def fileName (path : List Char) : List Char := (path.reverse.takeWhile (· ≠ '/')).reverse

/-- What stands behind the last dot of a file name. There has to be something before that dot. -/
def extension? (path : String) : Option String :=
  let reversed := (fileName path.toList).reverse
  match reversed.dropWhile (· ≠ '.') with
  | '.' :: _ :: _ => some (String.ofList (reversed.takeWhile (· ≠ '.')).reverse)
  | _ => none

namespace Config

def ofFile (path text : String) : Except Error Config :=
  if extension? path = some "json" then readJson text else readYaml text

def load {m : Type → Type} [Monad m] (files : Files m) (path : String) :
    ExceptT Error m Config := do
  ofFile path (← files.text path)

end Config

end Packrat
