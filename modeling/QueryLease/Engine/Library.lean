import QueryLease.Error
import QueryLease.Text.Outline

namespace QueryLease.Engine

/-- What is found under a name, with what the loader says against it as a whole, or against each
symbol that it does not export. -/
inductive Image where
  | refused (detail : String)
  | exporting (refusal : String → Option String)

abbrev Loader := String → Image

structure Library where
  path : String
  deriving DecidableEq

namespace Library

def usual : String := "liblbug.so"

def load (loader : Loader) (path : String) : Except LoadError Library :=
  match loader path with
  | .refused detail => .error (.load path detail)
  | .exporting refusal =>
    match Entry.all.findSome? fun e => refusal e.symbol with
    | some detail => .error (.symbols path detail)
    | none => .ok ⟨path⟩

def outline (l : Library) : String := Outline.record "Runtime" [("path", Outline.quoted l.path)]

end Library

end QueryLease.Engine
