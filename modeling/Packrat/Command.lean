import Packrat.Calc
import Packrat.Files
import Packrat.Json.Encode

namespace Packrat

inductive Command : Type
  | version : Command
  | list (file : String) (config : Option String) (json : Bool) : Command
  | evaluate (expression : String) : Command
  deriving DecidableEq

namespace Command

def isOption (arg : String) : Bool :=
  match arg.toList with
  | '-' :: _ :: _ => true
  | _ => false

def attached? (option arg : String) : Option String :=
  let stem := option.toList ++ ['=']
  if stem.isPrefixOf arg.toList then some (String.ofList (arg.toList.drop stem.length)) else none

structure Listing : Type where
  file : Option String := none
  config : Option String := none
  json : Bool := false

namespace Listing

def setFile? (l : Listing) (path : String) : Option Listing :=
  if l.file.isSome || path.isEmpty then none else some { l with file := some path }

def setConfig? (l : Listing) (path : String) : Option Listing :=
  if l.config.isSome || path.isEmpty then none else some { l with config := some path }

def setJson? (l : Listing) : Option Listing :=
  if l.json then none else some { l with json := true }

def ofArgs? (l : Listing) : List String → Option Listing
  | [] => some l
  | "--" :: rest => rest.foldlM setFile? l
  | "--json" :: rest => do ofArgs? (← l.setJson?) rest
  | "--config" :: path :: rest => do
    if isOption path then none else ofArgs? (← l.setConfig? path) rest
  | arg :: rest => do
    match attached? "--config" arg with
    | some path => ofArgs? (← l.setConfig? path) rest
    | none => if isOption arg then none else ofArgs? (← l.setFile? arg) rest

end Listing

def operands? : List String → Option (List String)
  | [] => some []
  | "--" :: rest => some rest
  | arg :: rest => if isOption arg then none else (operands? rest).map (arg :: ·)

def ofArgs? : List String → Option Command
  | "--version" :: _ => some version
  | "tokens" :: args => do
    let l ← Listing.ofArgs? {} args
    some (list (← l.file) l.config l.json)
  | "calc" :: args => do
    match ← operands? args with
    | [expression] => some (evaluate expression)
    | _ => none
  | arg :: _ => if "-V".toList.isPrefixOf arg.toList then some version else none
  | [] => none

def padLeft (width : Nat) (text : String) : String :=
  String.ofList (List.replicate (width - text.length) ' ') ++ text

def padRight (width : Nat) (text : String) : String :=
  text ++ String.ofList (List.replicate (width - text.length) ' ')

def tokenLine (t : Token) : String :=
  s!"{padLeft 4 (Nat.repr t.line)}  {padLeft 5 (Nat.repr t.marker.start)}.." ++
    s!"{padRight 5 (Nat.repr t.marker.stop)}  {t.descriptor}\n"

def listing (json : Bool) (ts : List Token) : String :=
  if json then (Json.array (ts.map Token.toJson)).renderPretty ++ "\n"
  else String.join (ts.map tokenLine)

variable {m : Type → Type} [Monad m]

/-- Runs a command and gives what it prints. A configuration is read before the file is. -/
def run (files : Files m) : Command → ExceptT Error m String
  | version => pure "lexparse 0.1.0\n"
  | list file config json => do
    let config ← match config with
      | some path => Config.load files path
      | none => pure {}
    let lexer ← Lexer.ofConfig config
    let source : Source := ⟨file, ← files.text file⟩
    let ts ← ExceptT.mk (pure ((lexer.list source.name source.content).mapError
      (·.withSource source)))
    pure (listing json ts)
  | evaluate expression => do
    pure (Decimal.render .plain (← Calc.evaluate expression) ++ "\n")

inductive Ending : Type
  | done (output : String) : Ending
  | failed (error : Error) : Ending
  | misused : Ending

namespace Ending

def status : Ending → Nat
  | done _ => 0
  | failed _ => 1
  | misused => 2

def output : Ending → String
  | done output => output
  | failed _ | misused => ""

def error? : Ending → Option Error
  | failed e => some e
  | done _ | misused => none

end Ending

def runArgs (files : Files m) (args : List String) : m Ending := do
  match ofArgs? args with
  | none => pure .misused
  | some c =>
    match ← (c.run files).run with
    | .ok output => pure (.done output)
    | .error e => pure (.failed e)

end Command

end Packrat
