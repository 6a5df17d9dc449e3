import Packrat.Command

namespace Packrat.Program

def faultOf : IO.Error → ReadFault
  | .noFileOrDirectory _ _ _ => .missing
  | .inappropriateType _ code _ => if code = 21 then .directory else .notDirectory
  | e => .other (toString e)

def readFile (path : String) : IO (Except ReadFault String) := do
  match ← (IO.FS.readBinFile path).toBaseIO with
  | .ok bytes => pure (decodeText bytes)
  | .error e => pure (.error (faultOf e))

end Packrat.Program

def main (args : List String) : IO UInt32 := do
  let ending ← Packrat.Command.runArgs Packrat.Program.readFile args
  IO.print ending.output
  match ending with
  | .failed e => IO.eprintln s!"{e.code}: {e.message}"
  | .misused => IO.eprintln "usage: lexparse tokens FILE [--config PATH] [--json] | calc EXPRESSION"
  | .done _ => pure ()
  return ending.status.toUInt32
