import Packrat.Files

namespace Packrat

structure Directory : Type where
  files : List (List String × ByteArray)

namespace Directory

def stays (step : String) : Bool := step.isEmpty || step == "."

def ofFiles (files : List (String × ByteArray)) : Directory :=
  ⟨files.map fun (path, bytes) => ((path.splitOn "/").filter (!stays ·), bytes)⟩

def above (steps : List String) : ReadFault :=
  if steps.all fun step => stays step || step == ".." then .directory else .missing

/-- Follows the steps of a path from `place` on. Nothing leads on from a file, not even an empty
step. -/
def follow (d : Directory) (place : List String) : List String → Except ReadFault ByteArray
  | [] => throw .directory
  | step :: steps =>
    if stays step then d.follow place steps
    else if step = ".." then
      if place.isEmpty then throw (above steps) else d.follow place.dropLast steps
    else
      let place := place ++ [step]
      match d.files.lookup place with
      | some bytes => if steps.isEmpty then pure bytes else throw .notDirectory
      | none =>
        if d.files.any fun (names, _) => place.isPrefixOf names then d.follow place steps
        else throw .missing

def read (d : Directory) (path : String) : Except ReadFault String :=
  match path.toList with
  | [] => throw .missing
  | '/' :: _ => throw (above (path.splitOn "/"))
  | _ => d.follow [] (path.splitOn "/") >>= decodeText

end Directory

end Packrat
