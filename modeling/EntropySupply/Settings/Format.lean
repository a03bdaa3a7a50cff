import EntropySupply.Settings.Tree

/-!
# Formats of settings

A record of settings is written as an object with a field per setting, or as a list of the settings
in order. Fields that are missing keep their defaults, unknown fields are ignored, and no known
field may come twice. A choice between names is written as the name, or as an object whose only key
is the name, with the value null.
-/

namespace EntropySupply.Settings

/-- How a value of a type is read from a tree and written as text. -/
structure Format (α : Type) where
  read? : Tree → Option α
  write : α → String

structure Field (α : Type) where
  name : String
  /-- Replaces the part by what a tree holds. -/
  read? : Tree → α → Option α
  write : α → String

def Field.of {α β : Type} (name : String) (format : Format β) (get : α → β) (set : β → α → α) :
    Field α where
  name
  read? t a := (format.read? t).map fun b => set b a
  write a := format.write (get a)

/-- Text between double quotes; names of settings need no escapes. -/
def plainQuoted (s : String) : String := "\"" ++ s ++ "\""

def integer (lowest highest : Int) : Format Int where
  read?
    | .number n => do
      let i ← n.toInt?
      if lowest ≤ i ∧ i ≤ highest then some i else none
    | _ => none
  write := toString

def word64 : Format UInt64 where
  read? t := ((integer 0 (UInt64.size - 1)).read? t).map fun i => UInt64.ofNat i.toNat
  write := toString

def word32 : Format UInt32 where
  read? t := ((integer 0 (UInt32.size - 1)).read? t).map fun i => UInt32.ofNat i.toNat
  write := toString

def int64 : Format Int64 where
  read? t := ((integer Int64.minValue.toInt Int64.maxValue.toInt).read? t).map Int64.ofInt
  write := toString

def choice {α : Type} (values : List α) (name : α → String) : Format α where
  read? t := do
    let units ← match t with
      | .text units => some units
      | .object [(key, .null)] => some key
      | _ => none
    let chosen ← decode? units
    values.find? fun a => name a == String.ofList chosen
  write a := plainQuoted (name a)

namespace Record

variable {α : Type}

/-- Reads the fields of an object one after another. `seen` are the known names met so far. -/
def readObject? (fields : List (Field α)) (seen : List String) (a : α) :
    List (List TextUnit × Tree) → Option α
  | [] => some a
  | (key, value) :: rest => do
    let name := String.ofList (← decode? key)
    match fields.find? fun f => f.name == name with
    | none => readObject? fields seen a rest
    | some field =>
      if seen.contains name then none
      else
        let a ← field.read? value a
        readObject? fields (name :: seen) a rest

/-- Reads the items of a list into the fields in order. -/
def readList? (a : α) : List (Field α) → List Tree → Option α
  | _, [] => some a
  | [], _ :: _ => none
  | field :: fields, item :: items => do
    let a ← field.read? item a
    readList? a fields items

end Record

def record {α : Type} (default : α) (fields : List (Field α)) : Format α where
  read?
    | .object entries => Record.readObject? fields [] default entries
    | .list items => Record.readList? default fields items
    | _ => none
  write a :=
    let parts := fields.map fun f => plainQuoted f.name ++ ":" ++ f.write a
    "\x7b" ++ ",".intercalate parts ++ "\x7d"

def Format.parse? {α : Type} (f : Format α) (text : String) : Option α :=
  (Tree.ofText? text).bind f.read?

end EntropySupply.Settings
