/-!
# Notices

What the parts of the library report while they work. A notice has a level and a text; a state
that keeps notices says how one is added to it.
-/

namespace EntropySupply

inductive Level where
  | trace
  | debug
  | info
  | warn
  | error
  deriving DecidableEq, Repr

def Level.name : Level → String
  | .trace => "trace"
  | .debug => "debug"
  | .info => "info"
  | .warn => "warn"
  | .error => "error"

structure Notice where
  level : Level
  text : String
  deriving DecidableEq, Repr

/-- A state that keeps the notices made while it is worked on. -/
class Journal (σ : Type) where
  note : Notice → σ → σ

/-- A journal alone: the notices in the order they were made. -/
instance : Journal (List Notice) where
  note n ns := ns ++ [n]

def Journal.noteAll {σ : Type} [Journal σ] (ns : List Notice) (s : σ) : σ :=
  ns.foldl (fun s n => Journal.note n s) s

end EntropySupply
